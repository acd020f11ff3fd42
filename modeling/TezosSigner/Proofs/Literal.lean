import TezosSigner.Operation.Script
import TezosSigner.Proofs.Varint

/-!
# Integer literals collected in a word

An integer of a script is collected in a word like any other number, but nothing of it may be
lost: a group of bits is shifted up to its place and down again, and is refused unless it comes
back. A word that holds a number below some place has room for a group at that place just if the
number with the group is below 2 ^ 64. So the literals that are read are those with a clear sign
bit whose groups all begin inside the word and whose value is below 2 ^ 64, and none is read as
anything but its value.
-/

namespace TezosSigner.Script

open Bytes Decoder

/-- The value of a terminated group of bytes as an integer: six bits in the first byte
and seven in each of the others. -/
def integerValue : Bytes → ℕ
  | [] => 0
  | first :: rest => first.toNat % 64 + 64 * septets rest

section Groups

variable {word group : UInt64} {shift : UInt32}

theorem toNat_shiftLeft (hshift : shift.toNat < 64) :
    (group <<< shift.toUInt64).toNat = 2 ^ shift.toNat * group.toNat % 2 ^ 64 := by
  rw [UInt64.toNat_shiftLeft, UInt32.toNat_toUInt64, Nat.mod_eq_of_lt hshift, Nat.shiftLeft_eq,
    Nat.mul_comm]

/-- A group that is shifted up and down again comes back just if nothing of it was lost. -/
theorem shiftRight_shiftLeft_eq_iff (hshift : shift.toNat < 64) :
    group <<< shift.toUInt64 >>> shift.toUInt64 = group ↔
      2 ^ shift.toNat * group.toNat < 2 ^ 64 := by
  have hpow : 0 < 2 ^ shift.toNat := Nat.two_pow_pos _
  rw [← UInt64.toNat_inj, UInt64.toNat_shiftRight, toNat_shiftLeft hshift, UInt32.toNat_toUInt64,
    Nat.mod_eq_of_lt hshift, Nat.shiftRight_eq_div_pow]
  constructor
  · intro hback
    calc 2 ^ shift.toNat * group.toNat
        = 2 ^ shift.toNat * (2 ^ shift.toNat * group.toNat % 2 ^ 64 / 2 ^ shift.toNat) := by
          rw [hback]
      _ ≤ 2 ^ shift.toNat * group.toNat % 2 ^ 64 := Nat.mul_div_le _ _
      _ < 2 ^ 64 := Nat.mod_lt _ (by decide)
  · intro hfits
    rw [Nat.mod_eq_of_lt hfits, Nat.mul_div_cancel_left _ hpow]

theorem refused_iff :
    (shift ≥ 64 ∨ group <<< shift.toUInt64 >>> shift.toUInt64 ≠ group) ↔
      ¬ (shift.toNat < 64 ∧ 2 ^ shift.toNat * group.toNat < 2 ^ 64) := by
  have hge : shift ≥ 64 ↔ ¬ shift.toNat < 64 := UInt32.le_iff_toNat_le.trans Nat.not_lt.symm
  rw [hge]
  by_cases hshift : shift.toNat < 64
  · simp only [hshift, not_true_eq_false, false_or, true_and, ne_eq,
      shiftRight_shiftLeft_eq_iff hshift]
  · simp only [hshift, not_false_eq_true, true_or, false_and]

/-- There is room for all of a group above a number, or for nothing of it. -/
theorem add_lt_of_fits (hword : word.toNat < 2 ^ shift.toNat) (hshift : shift.toNat < 64)
    (hfits : 2 ^ shift.toNat * group.toNat < 2 ^ 64) :
    word.toNat + 2 ^ shift.toNat * group.toNat < 2 ^ 64 := by
  have hsplit : 2 ^ 64 = 2 ^ shift.toNat * 2 ^ (64 - shift.toNat) := by
    rw [← Nat.pow_add, Nat.add_sub_cancel' hshift.le]
  have hgroup : group.toNat < 2 ^ (64 - shift.toNat) := by
    rw [hsplit] at hfits
    exact Nat.lt_of_mul_lt_mul_left hfits
  calc word.toNat + 2 ^ shift.toNat * group.toNat
      < 2 ^ shift.toNat + 2 ^ shift.toNat * group.toNat := Nat.add_lt_add_right hword _
    _ = 2 ^ shift.toNat * (group.toNat + 1) := by ring
    _ ≤ 2 ^ shift.toNat * 2 ^ (64 - shift.toNat) := Nat.mul_le_mul_left _ hgroup
    _ = 2 ^ 64 := hsplit.symm

/-- A group that fits is added above the number. -/
theorem toNat_or_placed (hword : word.toNat < 2 ^ shift.toNat) (hshift : shift.toNat < 64)
    (hfits : 2 ^ shift.toNat * group.toNat < 2 ^ 64) :
    (word ||| group <<< shift.toUInt64).toNat = word.toNat + 2 ^ shift.toNat * group.toNat := by
  rw [UInt64.toNat_or, UInt64.toNat_shiftLeft, UInt32.toNat_toUInt64, Nat.mod_eq_of_lt hshift,
    or_shiftLeft_mod hword hshift.le, Nat.mod_eq_of_lt (add_lt_of_fits hword hshift hfits)]

theorem toNat_shift_add (hshift : shift.toNat < 64) : (shift + 7).toNat = shift.toNat + 7 := by
  rw [UInt32.toNat_add]
  change (shift.toNat + 7) % 2 ^ 32 = _
  omega

/-- Behind a group of seven bits, the word holds a number below a place seven bits further on. -/
theorem or_placed_lt (hword : word.toNat < 2 ^ shift.toNat) (hshift : shift.toNat < 64)
    (hfits : 2 ^ shift.toNat * group.toNat < 2 ^ 64) (hgroup : group.toNat < 128) :
    (word ||| group <<< shift.toUInt64).toNat < 2 ^ (shift + 7).toNat := by
  rw [toNat_or_placed hword hshift hfits, toNat_shift_add hshift]
  calc word.toNat + 2 ^ shift.toNat * group.toNat
      < 2 ^ shift.toNat + 2 ^ shift.toNat * group.toNat := Nat.add_lt_add_right hword _
    _ = 2 ^ shift.toNat * (group.toNat + 1) := by ring
    _ ≤ 2 ^ shift.toNat * 128 := Nat.mul_le_mul_left _ hgroup
    _ = 2 ^ (shift.toNat + 7) := (Nat.pow_add 2 shift.toNat 7).symm

variable {byte : UInt8}

/-- What stands behind a byte comes above the word with the group of the byte. -/
theorem toNat_add_septets_cons (hword : word.toNat < 2 ^ shift.toNat) (hshift : shift.toNat < 64)
    (hfits : 2 ^ shift.toNat * group.toNat < 2 ^ 64) (hgroup : group.toNat = byte.toNat % 128)
    (digits : Bytes) :
    word.toNat + 2 ^ shift.toNat * septets (byte :: digits) =
      (word ||| group <<< shift.toUInt64).toNat + 2 ^ (shift.toNat + 7) * digits.septets := by
  rw [toNat_or_placed hword hshift hfits, septets, hgroup, Nat.pow_add]
  ring

/-- A byte that begins outside the word, or whose group does not fit, is too much already, whatever
stands behind it. -/
theorem not_read_of_not_fits
    (hroom : ¬ (shift.toNat < 64 ∧ 2 ^ shift.toNat * group.toNat < 2 ^ 64))
    (hgroup : group.toNat = byte.toNat % 128) (number : ℕ) (digits : Bytes) :
    ¬ (shift.toNat + 7 * (byte :: digits).length ≤ 70 ∧
      number + 2 ^ shift.toNat * septets (byte :: digits) < 2 ^ 64) := by
  rintro ⟨hlength, hvalue⟩
  refine hroom ⟨?_, Nat.lt_of_le_of_lt ?_ hvalue⟩
  · rw [List.length_cons] at hlength
    omega
  · rw [septets, hgroup]
    exact Nat.le_add_left_of_le (Nat.mul_le_mul_left _ (Nat.le_add_right _ _))

end Groups

/-- One byte is taken if its group fits into the word, and the last one ends the number. -/
theorem decode_amountOnto_cons (word : UInt64) (shift : UInt32) (byte : UInt8) (rest : Bytes) :
    (amountOnto word shift).decode (byte :: rest) =
      let group := (byte &&& 0x7F).toUInt64
      let placed := word ||| group <<< shift.toUInt64
      if shift.toNat < 64 ∧ 2 ^ shift.toNat * group.toNat < 2 ^ 64 then
        if byte < 0x80 then .ok (placed, rest) else (amountOnto placed (shift + 7)).decode rest
      else .error .malformed := by
  dsimp only
  rw [decode, amountOnto]
  simp only [refused_iff, and_top_eq_zero_iff]
  by_cases hroom : shift.toNat < 64 ∧ 2 ^ shift.toNat * (byte &&& 0x7F).toUInt64.toNat < 2 ^ 64
  · rw [if_neg (not_not.mpr hroom), if_pos hroom]
    by_cases hlast : byte < 0x80
    · rw [if_pos hlast, if_pos hlast]
    · rw [if_neg hlast, if_neg hlast]
      rfl
  · rw [if_pos hroom, if_neg hroom]

/-- What is read onto a word is added above the number in it. It is refused unless every byte of it
begins inside the word and the sum is below 2 ^ 64. -/
theorem decode_amountOnto {word : UInt64} {shift : UInt32}
    (hword : word.toNat < 2 ^ shift.toNat) (bytes : Bytes) :
    (amountOnto word shift).decode bytes =
      match bytes.splitTerminated? with
      | none => .error .malformed
      | some (digits, rest) =>
          let value := word.toNat + 2 ^ shift.toNat * digits.septets
          if shift.toNat + 7 * digits.length ≤ 70 ∧ value < 2 ^ 64 then
            .ok (UInt64.ofNat value, rest)
          else .error .malformed := by
  induction bytes generalizing word shift with
  | nil => rfl
  | cons byte bytes ih =>
      have hgroup : (byte &&& 0x7F).toUInt64.toNat = byte.toNat % 128 := by
        rw [UInt8.toNat_toUInt64, toNat_and_septet]
      rw [decode_amountOnto_cons, splitTerminated?]
      dsimp only
      generalize (byte &&& 0x7F).toUInt64 = group at hgroup ⊢
      by_cases hroom : shift.toNat < 64 ∧ 2 ^ shift.toNat * group.toNat < 2 ^ 64
      · obtain ⟨hshift, hfits⟩ := hroom
        have hvalue := toNat_add_septets_cons hword hshift hfits hgroup
        rw [if_pos ⟨hshift, hfits⟩]
        by_cases hlast : byte < 0x80
        · have hread : shift.toNat + 7 * [byte].length ≤ 70 ∧
              (word ||| group <<< shift.toUInt64).toNat < 2 ^ 64 :=
            ⟨Nat.add_le_add_right (Nat.le_of_lt_succ hshift) 7, UInt64.toNat_lt _⟩
          rw [if_pos hlast, if_pos hlast]
          dsimp only
          rw [hvalue, septets, Nat.mul_zero, Nat.add_zero, if_pos hread, UInt64.ofNat_toNat]
        · have hseptet : group.toNat < 128 := hgroup ▸ Nat.mod_lt _ (by decide)
          rw [if_neg hlast, if_neg hlast, ih (or_placed_lt hword hshift hfits hseptet),
            toNat_shift_add hshift]
          cases Bytes.splitTerminated? bytes with
          | none => rfl
          | some cut =>
              have hlength : shift.toNat + 7 * (byte :: cut.1).length =
                  shift.toNat + 7 + 7 * cut.1.length := by
                rw [List.length_cons]
                ring
              rw [Option.map_some]
              dsimp only
              rw [hvalue, hlength]
      · have htoomuch := not_read_of_not_fits hroom hgroup word.toNat
        rw [if_neg hroom]
        by_cases hlast : byte < 0x80
        · rw [if_pos hlast]
          exact (if_neg (htoomuch [])).symm
        · rw [if_neg hlast]
          cases Bytes.splitTerminated? bytes with
          | none => rfl
          | some cut => exact (if_neg (htoomuch cut.1)).symm

theorem toNat_and_sixBits (byte : UInt8) : (byte &&& 0x3F).toNat = byte.toNat % 64 :=
  (UInt8.toNat_and byte 0x3F).trans (Nat.and_two_pow_sub_one_eq_mod byte.toNat 6)

theorem decode_amount_cons (first : UInt8) (bytes : Bytes) :
    amount.decode (0x00 :: first :: bytes) =
      if first &&& 0x40 = 0 then
        if first < 0x80 then .ok ((first &&& 0x3F).toUInt64, bytes)
        else (amountOnto (first &&& 0x3F).toUInt64 6).decode bytes
      else .error .malformed := by
  have hread : amount (0x00 :: first :: bytes) =
      (do
        require (first &&& 0x40 == 0)
        if first &&& 0x80 = 0 then return (first &&& 0x3F).toUInt64
        else amountOnto (first &&& 0x3F).toUInt64 6) bytes := rfl
  rw [decode, hread]
  by_cases hsign : first &&& 0x40 = 0
  · rw [if_pos hsign, beq_iff_eq.mpr hsign]
    by_cases hlast : first < 0x80
    · rw [if_pos hlast, if_pos ((and_top_eq_zero_iff first).mpr hlast)]
      rfl
    · rw [if_neg hlast, if_neg (mt (and_top_eq_zero_iff first).mp hlast)]
      rfl
  · rw [if_neg hsign, beq_false_of_ne hsign]
    rfl

/-- An integer literal is read if the bit of its sign is clear, it has at most ten bytes, and its
value is below 2 ^ 64, which is then what is read. -/
theorem decode_amount (bytes : Bytes) :
    amount.decode (0x00 :: bytes) =
      match bytes.splitTerminated? with
      | none => .error .malformed
      | some (digits, rest) =>
          if digits.headD 0 &&& 0x40 = 0 ∧ digits.length ≤ 10 ∧ integerValue digits < 2 ^ 64 then
            .ok (UInt64.ofNat (integerValue digits), rest)
          else .error .malformed := by
  cases bytes with
  | nil => rfl
  | cons first bytes =>
      have hword : (first &&& 0x3F).toUInt64.toNat = first.toNat % 64 := by
        rw [UInt8.toNat_toUInt64, toNat_and_sixBits]
      have hbelow : first.toNat % 64 < 64 := Nat.mod_lt _ (by decide)
      rw [decode_amount_cons, splitTerminated?]
      by_cases hsign : first &&& 0x40 = 0
      · rw [if_pos hsign]
        by_cases hlast : first < 0x80
        · have hvalue : integerValue [first] = (first &&& 0x3F).toUInt64.toNat := hword.symm
          have hread : [first].headD 0 &&& 0x40 = 0 ∧ [first].length ≤ 10 ∧
              (first &&& 0x3F).toUInt64.toNat < 2 ^ 64 :=
            ⟨hsign, Nat.le_add_left 1 9, UInt64.toNat_lt _⟩
          rw [if_pos hlast, if_pos hlast]
          dsimp only
          rw [hvalue, if_pos hread, UInt64.ofNat_toNat]
        · rw [if_neg hlast, if_neg hlast, decode_amountOnto (by rw [hword]; exact hbelow), hword]
          cases Bytes.splitTerminated? bytes with
          | none => rfl
          | some cut =>
              obtain ⟨digits, rest⟩ := cut
              have hread : (6 + 7 * digits.length ≤ 70 ∧
                    first.toNat % 64 + 64 * digits.septets < 2 ^ 64) ↔
                  (first :: digits).headD 0 &&& 0x40 = 0 ∧ (first :: digits).length ≤ 10 ∧
                    integerValue (first :: digits) < 2 ^ 64 := by
                rw [List.headD_cons, List.length_cons, integerValue, and_iff_right hsign]
                omega
              exact if_congr hread rfl rfl
      · rw [if_neg hsign]
        by_cases hlast : first < 0x80
        · rw [if_pos hlast]
          exact (if_neg fun hread => hsign hread.1).symm
        · rw [if_neg hlast]
          cases Bytes.splitTerminated? bytes with
          | none => rfl
          | some cut => exact (if_neg fun hread => hsign hread.1).symm

-- The tenth byte has room for two bits: the largest word is read, and the next number is refused.
example :
    amount.decode (0x00 :: 0xBF :: List.replicate 8 0xFF ++ [0x03]) = .ok (0xFFFFFFFFFFFFFFFF, []) ∧
      amount.decode (0x00 :: 0x80 :: List.replicate 8 0x80 ++ [0x04]) = .error .malformed := by
  decide

end TezosSigner.Script
