import TezosSigner.Bytes
import TezosSigner.Status

/-!
# Frames

A command arrives as a frame: a class byte, an instruction, two parameters, the
length of the data, and the data.
-/

namespace TezosSigner

structure Frame where
  instruction : UInt8
  p1 : UInt8
  p2 : UInt8
  data : Bytes
deriving DecidableEq, Repr

namespace Frame

/-- The longest data of a signing chunk and of a request for a keyed hash. -/
def maxDataLength : Nat := 230

def classByte : UInt8 := 0x80

/-- Reads a frame. A foreign class is told apart before the length is looked at. -/
def ofBytes : Bytes → Except Status Frame
  | [] => .error .wrongLength
  | first :: rest =>
      if first ≠ classByte then .error .classError
      else
        match rest with
        | instruction :: p1 :: p2 :: length :: data =>
            if length.toNat = data.length then .ok ⟨instruction, p1, p2, data⟩
            else .error .wrongLength
        | _ => .error .wrongLength

end Frame

end TezosSigner
