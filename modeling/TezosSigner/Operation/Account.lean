import TezosSigner.Account
import TezosSigner.Wire.Decoder

/-!
# Accounts on the wire

An implicit account is a curve code and a key hash. Where any account may stand,
a leading byte tells an implicit one from an originated one, which is followed by
a byte of padding.
-/

namespace TezosSigner.Decoder

def curve : Decoder Curve := do
  match Curve.ofCode? (← byte) with
  | some curve => return curve
  | none => malformed

def implicitAccount : Decoder Contract := do
  let curve ← curve
  return .implicit curve (← sized 20)

/-- Reads an account of either kind. A leading zero announces an implicit account, any
other byte an originated one, whose padding is not inspected. -/
def contract : Decoder Contract := do
  if (← byte) = 0 then implicitAccount
  else
    let hash ← sized 20
    let _padding ← byte
    return .originated hash

/-- Reads an implicit account behind a byte that is zero when there is none. -/
def optionalAccount : Decoder (Option Contract) := do
  if (← byte) = 0 then return none
  else return some (← implicitAccount)

end TezosSigner.Decoder
