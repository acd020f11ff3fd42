import TezosSigner.Status

/-!
# Curves

A key lies on one of three curves. The same one-byte code names the curve in a
command's second parameter, in a stored baking key, and in front of a key hash
or a public key inside an operation.
-/

namespace TezosSigner

inductive Curve where
  | ed25519
  | secp256k1
  | secp256r1
deriving DecidableEq, Repr

namespace Curve

def code : Curve → UInt8
  | .ed25519 => 0
  | .secp256k1 => 1
  | .secp256r1 => 2

def ofCode? (code : UInt8) : Option Curve :=
  if code = 0 then some .ed25519
  else if code = 1 then some .secp256k1
  else if code = 2 then some .secp256r1
  else none

/-- Reading a curve's own code gives the curve back. -/
theorem ofCode?_code (curve : Curve) : ofCode? curve.code = some curve := by
  cases curve <;> rfl

def ofParameter (parameter : UInt8) : Except Status Curve :=
  match ofCode? parameter with
  | some curve => .ok curve
  | none => .error .wrongParam

end Curve

end TezosSigner
