import Mathlib
import TezosSigner.Wire.Decoder

/-!
# Numbers collected in a word

A number in base 128 is collected in a word of 64 bits: each byte puts its seven bits above those
that are there already. Bits that do not touch are added, and bits past the end of the word are
multiples of what a word counts to. So the word holds the number of all bytes read so far modulo
2 ^ 64, however many they are.
-/

namespace TezosSigner.Decoder

open Bytes

theorem toNat_and_septet (byte : UInt8) : (byte &&& 0x7F).toNat = byte.toNat % 128 :=
  (UInt8.toNat_and byte 0x7F).trans (Nat.and_two_pow_sub_one_eq_mod byte.toNat 7)

theorem and_top_eq_zero_iff (byte : UInt8) : byte &&& 0x80 = 0 ↔ byte < 0x80 := by
  have htop : ∀ value < 256, UInt8.ofNat value &&& 0x80 = 0 ↔ UInt8.ofNat value < 0x80 := by
    decide +kernel
  have hbyte := htop byte.toNat byte.toNat_lt
  rwa [UInt8.ofNat_toNat] at hbyte

/-- Within a word, bits that are put above a number are added to it. -/
theorem or_shiftLeft_mod {number place width : ℕ} (hnumber : number < 2 ^ place)
    (hplace : place ≤ width) (bits : ℕ) :
    number ||| bits <<< place % 2 ^ width = (number + 2 ^ place * bits) % 2 ^ width := by
  have hsplit : 2 ^ width = 2 ^ place * 2 ^ (width - place) := by
    rw [← Nat.pow_add, Nat.add_sub_cancel' hplace]
  have hlow : (number + 2 ^ place * bits) % 2 ^ place = number := by
    rw [Nat.add_mul_mod_self_left, Nat.mod_eq_of_lt hnumber]
  have hhigh : (number + 2 ^ place * bits) / 2 ^ place = bits := by
    rw [Nat.add_mul_div_left _ _ (by positivity), Nat.div_eq_of_lt hnumber, Nat.zero_add]
  rw [hsplit, Nat.shiftLeft_eq, Nat.mul_comm bits, Nat.mul_mod_mul_left, Nat.mod_mul, hlow, hhigh,
    Nat.lor_comm, ← Nat.two_pow_add_eq_or_of_lt hnumber, Nat.add_comm]

theorem toNat_nextShift (shift : UInt32) :
    (nextShift shift).toNat = min (shift.toNat + 7) (2 ^ 32 - 1) := by
  have hshift := shift.toNat_lt
  unfold nextShift
  split
  next hsmall =>
    have hle : shift.toNat ≤ 0xFFFFFFF8 := UInt32.le_iff_toNat_le.mp hsmall
    rw [UInt32.toNat_add]
    change (shift.toNat + 7) % 2 ^ 32 = _
    omega
  next hlarge =>
    have hgt : ¬ shift.toNat ≤ 0xFFFFFFF8 := fun hle => hlarge (UInt32.le_iff_toNat_le.mpr hle)
    change 0xFFFFFFFF = _
    omega

/-- A word holds a number below a place, and the shift has counted up to that place, as far as
it can count. -/
structure Upto (word : UInt64) (shift : UInt32) (place : ℕ) : Prop where
  word_lt : word.toNat < 2 ^ place
  shift_eq : shift.toNat = min place (2 ^ 32 - 1)

namespace Upto

theorem zero : Upto 0 0 0 := ⟨Nat.one_pos, rfl⟩

variable {word : UInt64} {shift : UInt32} {place : ℕ}

/-- Bits put above a number are added to it, as far as the word holds them. -/
theorem putSeptet_eq (hword : Upto word shift place) (byte : UInt8) :
    putSeptet word shift byte = UInt64.ofNat (word.toNat + 2 ^ place * (byte.toNat % 128)) := by
  obtain ⟨hlt, hshift⟩ := hword
  apply UInt64.toNat_inj.mp
  rw [UInt64.toNat_ofNat']
  unfold putSeptet
  split
  next hinside =>
    have hplace : place < 64 := by
      have hless : shift.toNat < 64 := UInt32.lt_iff_toNat_lt.mp hinside
      omega
    have hcount : shift.toUInt64.toNat % 64 = place := by
      rw [UInt32.toNat_toUInt64, hshift]
      omega
    rw [UInt64.toNat_or, UInt64.toNat_shiftLeft, UInt8.toNat_toUInt64, toNat_and_septet, hcount]
    exact or_shiftLeft_mod hlt hplace.le _
  next houtside =>
    -- Past the end of the word, the bits make a multiple of what a word counts to.
    have hplace : 64 ≤ place := by
      have hge : ¬ shift.toNat < 64 := fun hless => houtside (UInt32.lt_iff_toNat_lt.mpr hless)
      omega
    obtain ⟨more, rfl⟩ := Nat.exists_eq_add_of_le hplace
    rw [Nat.pow_add, Nat.mul_assoc, Nat.add_mul_mod_self_left, Nat.mod_eq_of_lt word.toNat_lt]

/-- Behind one more byte, the word holds a number below a place seven bits further on. -/
theorem next (hword : Upto word shift place) (byte : UInt8) :
    Upto (putSeptet word shift byte) (nextShift shift) (place + 7) := by
  refine ⟨?_, ?_⟩
  · have hseptet : byte.toNat % 128 < 128 := Nat.mod_lt _ (by decide)
    rw [hword.putSeptet_eq, UInt64.toNat_ofNat']
    refine (Nat.mod_le _ _).trans_lt ?_
    calc word.toNat + 2 ^ place * (byte.toNat % 128)
        < 2 ^ place + 2 ^ place * (byte.toNat % 128) := Nat.add_lt_add_right hword.word_lt _
      _ = 2 ^ place * (byte.toNat % 128 + 1) := by ring
      _ ≤ 2 ^ place * 128 := Nat.mul_le_mul_left _ hseptet
      _ = 2 ^ (place + 7) := (Nat.pow_add 2 place 7).symm
  · rw [toNat_nextShift, hword.shift_eq]
    omega

/-- What comes above the bits of a byte comes above the number and those bits. -/
theorem ofNat_putSeptet_add (hword : Upto word shift place) (byte : UInt8) (above : ℕ) :
    UInt64.ofNat ((putSeptet word shift byte).toNat + 2 ^ (place + 7) * above) =
      UInt64.ofNat (word.toNat + 2 ^ place * (byte.toNat % 128 + 128 * above)) := by
  apply UInt64.toNat_inj.mp
  rw [hword.putSeptet_eq, UInt64.toNat_ofNat', UInt64.toNat_ofNat', UInt64.toNat_ofNat',
    Nat.mod_add_mod, Nat.pow_add]
  congr 1
  ring

/-- What is read onto a word is added above the number that it holds. -/
theorem varintOnto_eq (hword : Upto word shift place) (bytes : Bytes) :
    varintOnto word shift bytes =
      match bytes.splitTerminated? with
      | some (group, rest) => .ok (UInt64.ofNat (word.toNat + 2 ^ place * group.septets)) rest
      | none => .error .malformed [] := by
  induction bytes generalizing word shift place with
  | nil => rfl
  | cons byte bytes ih =>
      rw [varintOnto, splitTerminated?]
      simp only [and_top_eq_zero_iff]
      split
      next hlast =>
        rw [hword.putSeptet_eq]
        rfl
      next hmore =>
        rw [ih (hword.next byte)]
        cases Bytes.splitTerminated? bytes with
        | none => rfl
        | some cut =>
            exact congrArg (EStateM.Result.ok · cut.2) (hword.ofNat_putSeptet_add byte _)

end Upto

/-- A number is read up to the first byte whose top bit is clear, and is kept modulo 2 ^ 64. -/
theorem varint_eq (bytes : Bytes) :
    varint bytes =
      match bytes.splitTerminated? with
      | some (group, rest) => .ok (UInt64.ofNat group.septets) rest
      | none => .error .malformed [] := by
  rw [varint, Upto.zero.varintOnto_eq]
  simp

end TezosSigner.Decoder
