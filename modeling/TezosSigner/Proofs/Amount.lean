import TezosSigner.Proofs.Numeral

/-!
# Amounts are written exactly

An amount is written as the numeral of the whole tez in it and, unless that is all, a point and
as few decimals as tell the rest. Factors of ten are taken out of the rest, with one place less
for each, and the numeral of what is left is filled up with zeros in front. That comes to the six
decimals of the rest less the zeros at their end. Read as a decimal fraction, what is written is
the amount again.
-/

namespace TezosSigner.Text

/-! ## Whole numbers -/

/-- A decimal numeral of a number, with no zero in front unless it is the only digit. -/
structure IsNumeral (value : Nat) (chars : List Char) : Prop where
  ne_nil : chars ≠ []
  isDigit : ∀ char ∈ chars, char.isDigit = true
  head : chars.head? = some '0' → chars = ['0']
  value : decimalValue chars = value

theorem decimalDigit_eq_zero_iff : ∀ digit < 10, decimalDigit digit = '0' ↔ digit = 0 := by
  decide

theorem isNumeral_decimalChars (value : Nat) : IsNumeral value (decimalChars value) := by
  have hdigit (char : Char) (hchar : char ∈ decimalChars value) : char.isDigit = true :=
    isDigit_of_mem_decimalChars hchar
  by_cases hzero : value = 0
  · subst hzero
    exact ⟨by decide, hdigit, fun _ => rfl, rfl⟩
  · -- The digit in front is the most significant one.
    have hchars : decimalChars value = (Nat.digits 10 value).reverse.map decimalDigit := by
      rw [decimalChars, if_neg hzero, digits_eq (by decide)]
    have hdigits : Nat.digits 10 value ≠ [] := Nat.digits_ne_nil_iff_ne_zero.mpr hzero
    refine ⟨?_, hdigit, fun hhead => ?_, decimalValue_decimalChars value⟩
    · rw [hchars, ne_eq, List.map_eq_nil_iff, List.reverse_eq_nil_iff]
      exact hdigits
    · rw [hchars, List.head?_map, List.head?_reverse, List.getLast?_eq_some_getLast hdigits,
        Option.map_some, Option.some.injEq, decimalDigit_eq_zero_iff _
          (Nat.digits_lt_base (by decide) (List.getLast_mem hdigits))] at hhead
      exact absurd hhead (Nat.getLast_digit_ne_zero 10 hzero)

/-! ## Decimals -/

/-- The `places` low decimal digits of a number, leading zeros included. -/
def fixedDecimalChars : Nat → Nat → List Char
  | 0, _ => []
  | places + 1, value => fixedDecimalChars places (value / 10) ++ [decimalDigit (value % 10)]

def dropTrailingZeros (chars : List Char) : List Char :=
  chars.rdropWhile (· == '0')

section Decimals

theorem decimalValue_fixedDecimalChars (places value : Nat) :
    decimalValue (fixedDecimalChars places value) = value % 10 ^ places := by
  induction places generalizing value with
  | zero =>
      rw [Nat.pow_zero, Nat.mod_one]
      rfl
  | succ places ih =>
      rw [fixedDecimalChars, decimalValue_append_singleton _ (Nat.mod_lt _ (by decide)), ih,
        Nat.pow_succ', Nat.mod_mul]

theorem length_fixedDecimalChars (places value : Nat) :
    (fixedDecimalChars places value).length = places := by
  induction places generalizing value with
  | zero => rfl
  | succ places ih => rw [fixedDecimalChars, List.length_append, ih, List.length_singleton]

theorem fixedDecimalChars_zero (places : Nat) :
    fixedDecimalChars places 0 = List.replicate places '0' := by
  induction places with
  | zero => rfl
  | succ places ih => rw [fixedDecimalChars, ih, List.replicate_succ']; rfl

theorem decimalChars_of_lt : ∀ value < 10, decimalChars value = [decimalDigit value] := by
  decide

theorem decimalChars_eq_append {value : Nat} (hvalue : 10 ≤ value) :
    decimalChars value = decimalChars (value / 10) ++ [decimalDigit (value % 10)] := by
  have hten : value / 10 ≠ 0 := by omega
  rw [decimalChars, decimalChars, if_neg (by omega), if_neg hten, digits_eq (by decide),
    digits_eq (by decide), Nat.digits_def' (by decide) (by omega), List.reverse_cons,
    List.map_append, List.map_singleton]

/-- The digits of a number that has enough places are its numeral behind zeros. -/
theorem replicate_append_decimalChars {places value : Nat} (hpos : 0 < value)
    (hvalue : value < 10 ^ places) :
    List.replicate (places - (decimalChars value).length) '0' ++ decimalChars value =
      fixedDecimalChars places value := by
  induction places generalizing value with
  | zero =>
      rw [Nat.pow_zero] at hvalue
      omega
  | succ places ih =>
      rw [fixedDecimalChars]
      rcases Nat.lt_or_ge value 10 with hdigit | hmore
      · rw [decimalChars_of_lt value hdigit, Nat.div_eq_of_lt hdigit, Nat.mod_eq_of_lt hdigit,
          fixedDecimalChars_zero]
        rfl
      · have htenth : value / 10 < 10 ^ places := by
          rw [Nat.pow_succ'] at hvalue
          exact Nat.div_lt_of_lt_mul hvalue
        rw [← ih (by omega) htenth, decimalChars_eq_append hmore, List.length_append,
          List.length_singleton, Nat.add_sub_add_right, List.append_assoc]

/-- Taking the zeros off the end of the decimals takes the factors of ten out of the number. -/
theorem dropTrailingZeros_fixedDecimalChars_succ (places value : Nat) :
    dropTrailingZeros (fixedDecimalChars (places + 1) value) =
      if value % 10 = 0 then dropTrailingZeros (fixedDecimalChars places (value / 10))
      else fixedDecimalChars (places + 1) value := by
  have hlast := decimalDigit_eq_zero_iff (value % 10) (Nat.mod_lt _ (by decide))
  have hstep := List.rdropWhile_concat (· == '0') (fixedDecimalChars places (value / 10))
    (decimalDigit (value % 10))
  simp only [beq_iff_eq, hlast] at hstep
  exact hstep

theorem isDigit_of_mem_fixedDecimalChars {places value : Nat} {char : Char}
    (hchar : char ∈ fixedDecimalChars places value) : char.isDigit = true := by
  induction places generalizing value with
  | zero => cases hchar
  | succ places ih =>
      rcases List.mem_append.mp hchar with hfront | hlast
      · exact ih hfront
      · rw [List.mem_singleton.mp hlast]
        exact decimalDigit_isDigit _ (Nat.mod_lt _ (by decide))

/-- Decimals without zeros at their end, at most `places` of them, that write a number of parts of
which `10 ^ places` make a whole. -/
structure IsFraction (places parts : Nat) (decimals : List Char) : Prop where
  length_le : decimals.length ≤ places
  isDigit : ∀ char ∈ decimals, char.isDigit = true
  last : decimals.getLast? ≠ some '0'
  eq_nil_iff : decimals = [] ↔ parts = 0
  value : decimalValue decimals * 10 ^ (places - decimals.length) = parts

theorem isFraction_dropTrailingZeros (places value : Nat) :
    IsFraction places (value % 10 ^ places)
      (dropTrailingZeros (fixedDecimalChars places value)) := by
  induction places generalizing value with
  | zero =>
      have hnothing : value % 10 ^ 0 = 0 := Nat.mod_one value
      rw [hnothing]
      exact ⟨Nat.le_refl _, nofun, nofun, iff_of_true rfl rfl, rfl⟩
  | succ places ih =>
      have hparts : value % 10 ^ (places + 1) = value % 10 + 10 * (value / 10 % 10 ^ places) := by
        rw [Nat.pow_succ', Nat.mod_mul]
      rw [dropTrailingZeros_fixedDecimalChars_succ]
      split_ifs with hzero
      · -- One place less, and one factor of ten.
        obtain ⟨hlength, hdigit, hlast, hnil, hvalue⟩ := ih (value / 10)
        refine ⟨by omega, hdigit, hlast, ?_, ?_⟩
        · rw [hnil]
          omega
        · rw [Nat.succ_sub hlength, Nat.pow_succ, ← Nat.mul_assoc, hvalue]
          omega
      · refine ⟨(length_fixedDecimalChars _ _).le, fun char => isDigit_of_mem_fixedDecimalChars,
          ?_, ?_, ?_⟩
        · rw [fixedDecimalChars, List.getLast?_concat, ne_eq, Option.some.injEq,
            decimalDigit_eq_zero_iff _ (Nat.mod_lt _ (by decide))]
          exact hzero
        · refine iff_of_false (by simp [fixedDecimalChars]) ?_
          omega
        · rw [length_fixedDecimalChars, Nat.sub_self, Nat.pow_zero, Nat.mul_one,
            decimalValue_fixedDecimalChars]

end Decimals

/-! ## Fractions -/

namespace Fraction

variable (fraction : Fraction)

/-- There are parts, so there are places for them. -/
theorem exists_digits_eq_succ : ∃ places, fraction.digits = places + 1 := by
  apply Nat.exists_eq_add_one_of_ne_zero
  intro hzero
  have hlt : fraction.parts.toNat < 10 ^ fraction.digits := fraction.parts_lt
  have hpos := fraction.toNat_parts_pos
  rw [hzero, Nat.pow_zero] at hlt
  omega

theorem chars_eq : fraction.chars = fixedDecimalChars fraction.digits fraction.parts.toNat :=
  replicate_append_decimalChars fraction.toNat_parts_pos fraction.parts_lt

theorem parts_mod_ten_eq_zero_iff :
    fraction.parts % 10 = 0 ↔ fraction.parts.toNat % 10 = 0 := by
  rw [← UInt64.toNat_inj, toNat_mod_ten]
  rfl

/-- Taking factors of ten out of the parts takes the zeros off the end of the digits. -/
theorem chars_reduce : fraction.reduce.chars =
    dropTrailingZeros (fixedDecimalChars fraction.digits fraction.parts.toNat) := by
  -- The induction is on the rounds, each of which has one digit less to write.
  induction fraction using reduce.induct with
  | case1 fraction hzero ih =>
      obtain ⟨places, hplaces⟩ := fraction.exists_digits_eq_succ
      have hlast := (fraction.parts_mod_ten_eq_zero_iff).mp hzero
      have hshorter : (fraction.shorten hzero).digits = places := Nat.sub_eq_of_eq_add hplaces
      have htenth : (fraction.shorten hzero).parts.toNat = fraction.parts.toNat / 10 :=
        fraction.toNat_div_ten
      rw [reduce, dif_pos hzero, ih, hshorter, htenth, hplaces,
        dropTrailingZeros_fixedDecimalChars_succ, if_pos hlast]
  | case2 fraction hlast =>
      obtain ⟨places, hplaces⟩ := fraction.exists_digits_eq_succ
      have hdigit := mt (fraction.parts_mod_ten_eq_zero_iff).mpr hlast
      rw [reduce, dif_neg hlast, chars_eq, hplaces, dropTrailingZeros_fixedDecimalChars_succ,
        if_neg hdigit]

end Fraction

/-! ## Amounts -/

/-- The six decimals of an amount less their trailing zeros. -/
def tezDecimals (amount : UInt64) : List Char :=
  dropTrailingZeros (fixedDecimalChars 6 (amount.toNat % 10 ^ 6))

theorem isFraction_tezDecimals (amount : UInt64) :
    IsFraction 6 (amount.toNat % 10 ^ 6) (tezDecimals amount) := by
  have hdropped := isFraction_dropTrailingZeros 6 (amount.toNat % 10 ^ 6)
  rwa [Nat.mod_mod] at hdropped

/-- An amount is written as the numeral of the whole tez in it and, if any decimals are left, a
point and these. -/
theorem tezChars_eq (amount : UInt64) :
    tezChars amount = decimalChars (amount.toNat / 10 ^ 6) ++
      (if tezDecimals amount = [] then [] else '.' :: tezDecimals amount) := by
  have hparts : (amount % 1000000).toNat = amount.toNat % 10 ^ 6 := UInt64.toNat_mod amount 1000000
  have hwhole : (amount / 1000000).toNat = amount.toNat / 10 ^ 6 := UInt64.toNat_div amount 1000000
  have hnone : amount % 1000000 = 0 ↔ tezDecimals amount = [] := by
    rw [(isFraction_tezDecimals amount).eq_nil_iff, ← hparts, ← UInt64.toNat_inj]
    rfl
  rw [tezChars, hwhole]
  dsimp only
  by_cases hzero : amount % 1000000 = 0
  · rw [dif_pos hzero, if_pos (hnone.mp hzero), List.append_nil]
  · rw [dif_neg hzero, if_neg (mt hnone.mpr hzero), Fraction.chars_reduce]
    dsimp only
    rw [hparts]
    rfl

/-- The number that a decimal fraction writes: the whole in front of the point, and the decimals
behind it, if there is one. -/
def fractionValue (chars : List Char) : ℚ :=
  let decimals := (chars.dropWhile (· != '.')).tail
  decimalValue (chars.takeWhile (· != '.')) + decimalValue decimals / 10 ^ decimals.length

theorem fractionValue_append {whole : List Char} (hwhole : ∀ char ∈ whole, char.isDigit = true)
    (decimals : List Char) :
    fractionValue (whole ++ (if decimals = [] then [] else '.' :: decimals)) =
      decimalValue whole + decimalValue decimals / 10 ^ decimals.length := by
  have hpoint : ∀ char ∈ whole, (char != '.') = true := by
    intro char hchar
    refine bne_iff_ne.mpr ?_
    rintro rfl
    cases hwhole _ hchar
  rw [fractionValue, List.takeWhile_append_of_pos hpoint, List.dropWhile_append_of_pos hpoint]
  split_ifs with hempty
  · simp [hempty]
  · simp

theorem IsFraction.div_mul_pow {places parts : Nat} {decimals : List Char}
    (hfraction : IsFraction places parts decimals) :
    (decimalValue decimals : ℚ) / 10 ^ decimals.length * 10 ^ places = parts := by
  have hpow : (10 : ℚ) ^ decimals.length ≠ 0 := by positivity
  calc (decimalValue decimals : ℚ) / 10 ^ decimals.length * 10 ^ places
      = decimalValue decimals / 10 ^ decimals.length *
          (10 ^ (places - decimals.length) * 10 ^ decimals.length) := by
        rw [pow_sub_mul_pow 10 hfraction.length_le]
    _ = decimalValue decimals * 10 ^ (places - decimals.length) := by
        rw [mul_comm ((10 : ℚ) ^ (places - decimals.length)), ← mul_assoc, div_mul_cancel₀ _ hpow]
    _ = parts := by
        rw [← hfraction.value]
        push_cast
        rfl

/-- What is written of an amount denotes it, in millionths. -/
theorem fractionValue_tezChars (amount : UInt64) :
    fractionValue (tezChars amount) * 10 ^ 6 = amount.toNat := by
  have hwhole := isNumeral_decimalChars (amount.toNat / 10 ^ 6)
  rw [tezChars_eq, fractionValue_append hwhole.isDigit, hwhole.value, add_mul,
    (isFraction_tezDecimals amount).div_mul_pow]
  exact_mod_cast Nat.div_add_mod' amount.toNat (10 ^ 6)

theorem tez_injective : Function.Injective tez := by
  intro first second heq
  have hchars : tezChars first = tezChars second := String.ofList_injective heq
  have hvalue := fractionValue_tezChars first
  rw [hchars, fractionValue_tezChars] at hvalue
  exact UInt64.toNat_inj.mp (Nat.cast_injective hvalue).symm

/-- The text of an amount is the numeral of the whole tez in it and, unless the amount is a whole
number of tez, a point and at most six decimals of which the last is not zero. As a decimal
fraction it denotes the amount exactly, so different amounts have different texts. -/
theorem tez_exact (amount : UInt64) :
    ∃ whole decimals : List Char,
      (tez amount).toList = whole ++ (if decimals = [] then [] else '.' :: decimals) ∧
      IsNumeral (amount.toNat / 10 ^ 6) whole ∧
      (decimals = [] ↔ 10 ^ 6 ∣ amount.toNat) ∧ decimals.length ≤ 6 ∧
      (∀ char ∈ decimals, char.isDigit = true) ∧ decimals.getLast? ≠ some '0' ∧
      fractionValue (tez amount).toList * 10 ^ 6 = amount.toNat ∧
      ∀ other, tez other = tez amount → other = amount := by
  have hwhole := isNumeral_decimalChars (amount.toNat / 10 ^ 6)
  have hfraction := isFraction_tezDecimals amount
  have hchars : (tez amount).toList = tezChars amount := String.toList_ofList
  rw [hchars]
  refine ⟨_, _, tezChars_eq amount, hwhole, ?_, hfraction.length_le, hfraction.isDigit,
    hfraction.last, fractionValue_tezChars amount, fun other hsame => tez_injective hsame⟩
  rw [hfraction.eq_nil_iff, Nat.dvd_iff_mod_eq_zero]

/-- Zeros between the point and the other decimals stay. -/
example : tez 3070050 = "3.07005" := by decide +kernel

end TezosSigner.Text
