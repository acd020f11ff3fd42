import Mathlib
import TezosSigner.Text.Hex
import TezosSigner.Text.Numeral

/-!
# Reading numerals back

Every numeral has one value, so numbers that are written alike are equal, with or
without a sign. Hexadecimal text is read back as the bytes that it was made from.
-/

namespace TezosSigner.Text

section Zeros

variable {α : Type} [BEq α] [LawfulBEq α]

theorem replicate_append_dropWhile (zero : α) (xs : List α) :
    List.replicate (xs.takeWhile (· == zero)).length zero ++ xs.dropWhile (· == zero) = xs := by
  have hzeros : xs.takeWhile (· == zero) =
      List.replicate (xs.takeWhile (· == zero)).length zero := by
    apply List.eq_replicate_of_mem
    intro x hx
    have hzero := List.mem_takeWhile_imp hx
    exact eq_of_beq hzero
  rw [← hzeros, List.takeWhile_append_dropWhile]

end Zeros

section Digits

variable {base value : Nat}

theorem digitsOnto_eq (hbase : 1 < base) {places : Nat} (hplaces : value < 2 ^ places)
    (behind : List Nat) :
    digitsOnto base places value behind = (Nat.digits base value).reverse ++ behind := by
  induction places generalizing value behind with
  | zero =>
      have hzero : value = 0 := Nat.lt_one_iff.mp hplaces
      rw [hzero, Nat.digits_zero]
      rfl
  | succ places ih =>
      unfold digitsOnto
      split
      next hzero =>
        rw [hzero, Nat.digits_zero]
        rfl
      next hpos =>
        -- Each place takes at least one binary place off the number.
        have hhalf : value / base ≤ value / 2 := Nat.div_le_div_left hbase Nat.zero_lt_two
        have hless : value / base < 2 ^ places := by
          rw [Nat.pow_succ] at hplaces
          omega
        rw [ih hless, Nat.digits_def' hbase (Nat.pos_of_ne_zero hpos), List.reverse_cons,
          List.append_assoc, List.singleton_append]

theorem digits_eq (hbase : 1 < base) : digits base value = (Nat.digits base value).reverse := by
  rw [digits, digitsOnto_eq hbase Nat.lt_log2_self, List.append_nil]

theorem lt_of_mem_digits (hbase : 1 < base) {digit : Nat} (hdigit : digit ∈ digits base value) :
    digit < base := by
  rw [digits_eq hbase, List.mem_reverse] at hdigit
  exact Nat.digits_lt_base hbase hdigit

/-- The value of digits, most significant first. -/
def ofDigits (base : Nat) (digits : List Nat) : Nat :=
  Nat.ofDigits base digits.reverse

theorem ofDigits_digits (hbase : 1 < base) : ofDigits base (digits base value) = value := by
  rw [ofDigits, digits_eq hbase, List.reverse_reverse, Nat.ofDigits_digits]

theorem ofDigits_append_singleton (front : List Nat) (digit : Nat) :
    ofDigits base (front ++ [digit]) = digit + base * ofDigits base front := by
  rw [ofDigits, List.reverse_append, List.reverse_singleton, List.singleton_append,
    Nat.ofDigits_cons]
  rfl

theorem ofDigits_replicate_append (zeros : Nat) (digits : List Nat) :
    ofDigits base (List.replicate zeros 0 ++ digits) = ofDigits base digits := by
  rw [ofDigits, List.reverse_append, List.reverse_replicate, Nat.ofDigits_append_replicate_zero]
  rfl

/-- Digits are those of their value, but for the zeros in front. -/
theorem digits_ofDigits (hbase : 1 < base) {ds : List Nat} (hds : ∀ digit ∈ ds, digit < base) :
    digits base (ofDigits base ds) = ds.dropWhile (· == 0) := by
  have hvalue : ofDigits base ds = ofDigits base (ds.dropWhile (· == 0)) := by
    conv_lhs => rw [← replicate_append_dropWhile 0 ds]
    exact ofDigits_replicate_append _ _
  rw [hvalue, digits_eq hbase, ofDigits, Nat.digits_ofDigits base hbase, List.reverse_reverse]
  · intro digit hdigit
    exact hds digit ((List.dropWhile_sublist _).mem (List.mem_reverse.mp hdigit))
  · intro hne
    rw [List.getLast_reverse]
    have hhead := List.head_dropWhile_not (· == 0) (List.reverse_ne_nil_iff.mp hne)
    exact ne_of_beq_false hhead

/-- Characters that stand for digits are read back one by one. -/
theorem map_map_digits {digit : Nat → Char} {read : Char → Nat}
    (hread : ∀ value < base, read (digit value) = value) {ds : List Nat}
    (hds : ∀ digit ∈ ds, digit < base) : (ds.map digit).map read = ds := by
  rw [List.map_map]
  exact (List.map_congr_left fun value hvalue => hread value (hds value hvalue)).trans ds.map_id

end Digits

section Decimal

/-- The number that a decimal numeral writes. -/
def decimalValue (chars : List Char) : Nat :=
  ofDigits 10 (chars.map fun char => char.toNat - '0'.toNat)

theorem decimalDigit_toNat : ∀ digit < 10, (decimalDigit digit).toNat - '0'.toNat = digit := by
  decide

theorem decimalDigit_isDigit : ∀ digit < 10, (decimalDigit digit).isDigit = true := by
  decide

/-- Zero has a digit of its own here. -/
theorem decimalChars_eq_map (value : Nat) :
    ∃ ds, (∀ digit ∈ ds, digit < 10) ∧ ofDigits 10 ds = value ∧
      decimalChars value = ds.map decimalDigit := by
  unfold decimalChars
  split
  next hzero =>
    refine ⟨[0], ?_, hzero.symm, rfl⟩
    simp
  next =>
    exact ⟨digits 10 value, fun digit => lt_of_mem_digits (by decide),
      ofDigits_digits (by decide), rfl⟩

theorem decimalValue_decimalChars (value : Nat) : decimalValue (decimalChars value) = value := by
  obtain ⟨ds, hds, hvalue, hchars⟩ := decimalChars_eq_map value
  rw [decimalValue, hchars, map_map_digits decimalDigit_toNat hds, hvalue]

theorem isDigit_of_mem_decimalChars {value : Nat} {char : Char}
    (hchar : char ∈ decimalChars value) : char.isDigit = true := by
  obtain ⟨ds, hds, _, hchars⟩ := decimalChars_eq_map value
  rw [hchars] at hchar
  obtain ⟨digit, hdigit, rfl⟩ := List.mem_map.mp hchar
  exact decimalDigit_isDigit digit (hds digit hdigit)

theorem decimal_injective : Function.Injective decimal := by
  intro first second heq
  have hchars : decimalChars first = decimalChars second := String.ofList_injective heq
  rw [← decimalValue_decimalChars first, hchars, decimalValue_decimalChars]

/-- A minus sign is no digit, so numerals with and without one differ. -/
theorem minus_append_decimal_ne (first second : Nat) : "-" ++ decimal first ≠ decimal second := by
  intro heq
  have hchars : '-' :: decimalChars first = decimalChars second := by
    simpa [decimal] using congrArg String.toList heq
  have hdigit : '-'.isDigit = true :=
    isDigit_of_mem_decimalChars (hchars ▸ List.mem_cons_self)
  cases hdigit

theorem signedDecimal_injective : Function.Injective signedDecimal := by
  intro first second heq
  unfold signedDecimal at heq
  split at heq
  next hfirst =>
    split at heq
    next hsecond =>
      have habs := decimal_injective ((String.append_right_inj _).mp heq)
      omega
    next => exact absurd heq (minus_append_decimal_ne _ _)
  next hfirst =>
    split at heq
    next => exact absurd heq.symm (minus_append_decimal_ne _ _)
    next hsecond =>
      have habs := decimal_injective heq
      omega

theorem decimalValue_append_singleton (front : List Char) {digit : Nat} (hdigit : digit < 10) :
    decimalValue (front ++ [decimalDigit digit]) = digit + 10 * decimalValue front := by
  rw [decimalValue, List.map_append, List.map_singleton, decimalDigit_toNat digit hdigit,
    ofDigits_append_singleton]
  rfl

end Decimal

section Hexadecimal

theorem hexValue?_hexDigit : ∀ value < 16, hexValue? (hexDigit value) = some value := by
  decide

theorem ofHexChars?_hexByte (bytes : Bytes) :
    ofHexChars? (bytes.flatMap hexByte) = some bytes := by
  induction bytes with
  | nil => rfl
  | cons byte bytes ih =>
      have hhigh : byte.toNat / 16 < 16 := Nat.div_lt_of_lt_mul byte.toNat_lt
      have hlow : byte.toNat % 16 < 16 := Nat.mod_lt _ (by decide)
      have hbyte : UInt8.ofNat (16 * (byte.toNat / 16) + byte.toNat % 16) = byte := by
        rw [Nat.div_add_mod, UInt8.ofNat_toNat]
      rw [List.flatMap_cons, hexByte, List.cons_append, List.cons_append, List.nil_append,
        ofHexChars?, hexValue?_hexDigit _ hhigh, hexValue?_hexDigit _ hlow, ih]
      exact congrArg (fun first => some (first :: bytes)) hbyte

theorem ofHex?_hex (bytes : Bytes) : ofHex? (hex bytes) = some bytes := by
  rw [ofHex?, hex, String.toList_ofList, ofHexChars?_hexByte]

theorem hex_injective : Function.Injective hex := by
  intro first second heq
  apply Option.some.inj
  rw [← ofHex?_hex first, heq, ofHex?_hex]

end Hexadecimal

end TezosSigner.Text
