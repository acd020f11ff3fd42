import TezosSigner.Wire.Decoder

/-!
# Writing numbers of variable length

Numbers inside operations are written in groups of seven bits, least significant
group first, with the top bit set in every byte but the last. Integers inside
scripts use the same form, except that their first byte holds six bits and a
clear sign bit. Neither writer puts a superfluous group of zeros at the end.
-/

namespace TezosSigner.Wire

/-- Writes at most `groups` further groups of seven bits. -/
def septetGroups : Nat → Nat → Bytes
  | 0, _ => []
  | groups + 1, value =>
      if value < 128 then [UInt8.ofNat value]
      else UInt8.ofNat (value % 128 + 128) :: septetGroups groups (value / 128)

/-- The shortest form of a 64-bit number in base 128. -/
def varint (value : UInt64) : Bytes :=
  septetGroups 10 value.toNat

/-- The shortest form of a 64-bit number as an integer of a script. -/
def scriptNat (value : UInt64) : Bytes :=
  if value.toNat < 64 then [UInt8.ofNat value.toNat]
  else UInt8.ofNat (value.toNat % 64 + 128) :: septetGroups 9 (value.toNat / 64)

end TezosSigner.Wire
