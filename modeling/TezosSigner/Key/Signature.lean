import TezosSigner.Bytes
import TezosSigner.Status

/-!
# Signatures

A signature is sent to the host as it was encoded, except that the first byte of
an elliptic-curve signature also carries the parity of its nonce point.
-/

namespace TezosSigner

/-- The longest encoding of a signature. -/
def Signature.capacity : Nat := 72

structure Signature where
  bytes : Bytes
  length_le : bytes.length ≤ Signature.capacity
deriving DecidableEq

namespace Signature

/-- An Edwards signature is sent as it is. -/
def ofEdwards (bytes : Bytes.Sized 64) : Signature :=
  ⟨bytes.val, by rw [bytes.property]; decide⟩

/-- An elliptic-curve signature of one to seventy-two bytes, with the parity of the nonce
point put into the low bit of the first byte. -/
def ofEncoded (encoded : Bytes) (nonceIsOdd : Bool) : Except Status Signature :=
  match encoded with
  | [] => .error .wrongLength
  | first :: rest =>
      if h : rest.length < capacity then
        .ok ⟨(if nonceIsOdd then first ||| 0x01 else first) :: rest, h⟩
      else .error .wrongLength

end Signature

end TezosSigner
