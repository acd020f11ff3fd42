/-!
# Numerals

Positional digits of a number in any base, the decimal numerals made from
them, and amounts of tez. An amount is kept in millionths of a tez and shown
as a decimal fraction of a tez without trailing zeros.
-/

namespace TezosSigner.Text

/-- Puts at most `places` digits of a number in front of `behind`. -/
def digitsOnto (base : Nat) : Nat → Nat → List Nat → List Nat
  | 0, _, behind => behind
  | places + 1, value, behind =>
      if value = 0 then behind
      else digitsOnto base places (value / base) (value % base :: behind)

/-- The digits of a number in a base of at least two, most significant first;
zero has none. A number has no more digits than binary places. -/
def digits (base value : Nat) : List Nat :=
  digitsOnto base (value.log2 + 1) value []

def decimalDigit (value : Nat) : Char :=
  Char.ofNat ('0'.toNat + value)

/-- The decimal numeral of a number, without leading zeros. -/
def decimalChars (value : Nat) : List Char :=
  if value = 0 then ['0'] else (digits 10 value).map decimalDigit

def decimal (value : Nat) : String :=
  String.ofList (decimalChars value)

/-- The decimal numeral of an integer, with a minus sign in front of negative ones. -/
def signedDecimal (value : Int) : String :=
  if value < 0 then "-" ++ decimal value.natAbs else decimal value.natAbs

/-- A number of parts, of which ten to the power of `digits` make a whole: there are some, but not
enough for a whole. -/
structure Fraction where
  parts : UInt64
  digits : Nat
  parts_ne_zero : parts ≠ 0
  parts_lt : parts.toNat < Nat.pow 10 digits

namespace Fraction

variable (fraction : Fraction)

theorem toNat_parts_pos : 0 < fraction.parts.toNat :=
  Nat.pos_of_ne_zero (mt (@UInt64.toNat_inj fraction.parts 0).mp fraction.parts_ne_zero)

theorem toNat_div_ten : (fraction.parts / 10).toNat = fraction.parts.toNat / 10 :=
  UInt64.toNat_div fraction.parts 10

theorem toNat_mod_ten : (fraction.parts % 10).toNat = fraction.parts.toNat % 10 :=
  UInt64.toNat_mod fraction.parts 10

/-- The same fraction with one digit less, if the last one is a zero. -/
def shorten (hzero : fraction.parts % 10 = 0) : Fraction where
  parts := fraction.parts / 10
  digits := fraction.digits - 1
  parts_ne_zero := by
    have hpos := fraction.toNat_parts_pos
    have hmod := fraction.toNat_mod_ten
    rw [hzero] at hmod
    change 0 = _ at hmod
    intro hnone
    have hdiv := fraction.toNat_div_ten
    rw [hnone] at hdiv
    change 0 = _ at hdiv
    omega
  parts_lt := by
    have hlt : fraction.parts.toNat < 10 ^ fraction.digits := fraction.parts_lt
    have hpos := fraction.toNat_parts_pos
    change (fraction.parts / 10).toNat < 10 ^ (fraction.digits - 1)
    rw [toNat_div_ten]
    cases hdigits : fraction.digits with
    | zero =>
        rw [hdigits, Nat.pow_zero] at hlt
        omega
    | succ digits =>
        rw [hdigits, Nat.pow_succ] at hlt
        rw [Nat.add_sub_cancel]
        exact Nat.div_lt_of_lt_mul (Nat.mul_comm _ 10 ▸ hlt)

/-- The same fraction with as few digits as will do. It ends since there are some parts, of which
a tenth is less. -/
def reduce (fraction : Fraction) : Fraction :=
  if hzero : fraction.parts % 10 = 0 then (fraction.shorten hzero).reduce else fraction
termination_by fraction.parts.toNat
decreasing_by
  rw [shorten, toNat_div_ten]
  exact Nat.div_lt_self fraction.toNat_parts_pos (by decide)

/-- The digits of a fraction: those of its parts, behind as many zeros as are wanting. -/
def chars (fraction : Fraction) : List Char :=
  let numeral := decimalChars fraction.parts.toNat
  List.replicate (fraction.digits - numeral.length) '0' ++ numeral

end Fraction

/-- An amount in millionths as a decimal fraction: the whole part and, unless that is all, a point
and the other millionths as a fraction with as few digits as will do. -/
def tezChars (amount : UInt64) : List Char :=
  let whole := decimalChars (amount / 1000000).toNat
  if hwhole : amount % 1000000 = 0 then whole
  else
    have hless : (amount % 1000000).toNat < Nat.pow 10 6 := by
      rw [UInt64.toNat_mod]
      exact Nat.mod_lt _ (by decide)
    whole ++ '.' :: (Fraction.mk (amount % 1000000) 6 hwhole hless).reduce.chars

def tez (amount : UInt64) : String :=
  String.ofList (tezChars amount)

end TezosSigner.Text
