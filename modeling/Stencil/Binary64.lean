/-!
# Finite binary floating-point numbers

A finite double-precision number is a sign, a significand of at most 53 bits and a power of
two. Everything here is exact arithmetic on natural numbers: the magnitude of a number is
counted in units of `2 ^ -1074`, the smallest positive number of the format, so every
magnitude is a natural number of units and every comparison is a comparison of naturals.

Numbers are kept in their one normalised form, so two numbers of equal sign and equal
magnitude are equal. The two zeros differ in their sign and agree in their value.

## Main results

* `units_eq_zero_iff` — only a zero significand gives a zero magnitude.
* `fraction_eq_zero_iff` — a number without a fraction is a whole number of ones.
* `isBelow_greatestInt64_iff` — the number nearest to the greatest signed 64-bit integer is
  `2 ^ 63`.
* `toInt64_of_scaled` — a whole number within 64 bits is taken over as it is.
-/

namespace Stencil

namespace Binary64

def twoPow (k : Nat) : Nat := 1 <<< k

def tenPow (k : Nat) : Nat := Nat.pow 10 k

theorem twoPow_pos (k : Nat) : 0 < twoPow k := by
  rw [twoPow, Nat.one_shiftLeft]
  exact Nat.two_pow_pos k

end Binary64

/-- A finite double-precision number: the sign, and the magnitude
`significand * 2 ^ exponent` in units of `2 ^ -1074`. -/
structure Binary64 where
  /-- Whether the sign is negative; a zero has a sign too. -/
  negative : Bool
  significand : Nat
  /-- The power of two of one unit in the last place, counted from `2 ^ -1074`. -/
  exponent : Nat
  significand_lt : significand < Binary64.twoPow 53
  exponent_le : exponent ≤ 2045
  /-- The form is normalised: a small significand goes with the smallest exponent only. -/
  normalised : exponent = 0 ∨ Binary64.twoPow 52 ≤ significand
  deriving DecidableEq

namespace Binary64

/-- The number of units in one. -/
def one : Nat := twoPow 1074

theorem one_pos : 0 < one := twoPow_pos 1074

/-- The magnitude in units. -/
def units (x : Binary64) : Nat := x.significand * twoPow x.exponent

/-- The value in units, with its sign; both zeros have the value `0`. -/
def scaled (x : Binary64) : Int := if x.negative then -(x.units : Int) else x.units

/-- Whether two numbers have the same value. The two zeros do. -/
def sameValue (x y : Binary64) : Bool := x.scaled == y.scaled

def neg (x : Binary64) : Binary64 := { x with negative := !x.negative }

def isZero (x : Binary64) : Bool := x.significand == 0

/-- A magnitude is zero only if the significand is. -/
theorem units_eq_zero_iff (x : Binary64) : x.units = 0 ↔ x.significand = 0 := by
  unfold units
  have := twoPow_pos x.exponent
  rw [Nat.mul_eq_zero]
  omega

/-- The magnitude of a whole number of ones. -/
theorem units_of_scaled {x : Binary64} {n : Int} (h : x.scaled = n * (one : Int)) :
    x.units = n.natAbs * one := by
  have habs : x.scaled.natAbs = x.units := by
    unfold scaled
    split <;> simp
  rw [← habs, h, Int.natAbs_mul, Int.natAbs_natCast]

/-! ## Rounding -/

/-- The integer nearest to `num / den`, a half going to the even neighbour. -/
def divNearest (num den : Nat) : Nat :=
  let quotient := num / den
  let twice := 2 * (num % den)
  if twice < den ∨ (twice = den ∧ quotient % 2 = 0) then quotient else quotient + 1

/-- The number with the given parts, if they are a normalised finite number. -/
def ofParts? (negative : Bool) (significand exponent : Nat) : Option Binary64 :=
  if h : significand < twoPow 53 ∧ exponent ≤ 2045 ∧
      (exponent = 0 ∨ twoPow 52 ≤ significand) then
    some ⟨negative, significand, exponent, h.1, h.2.1, h.2.2⟩
  else
    none

/-- The number nearest to `num / den`, a half going to the even significand, or nothing if
that is beyond the greatest finite number. -/
def ofRatio? (negative : Bool) (num den : Nat) : Option Binary64 :=
  let scaled := num * one
  let exponent := Nat.log2 (scaled / den) - 52
  let significand := divNearest scaled (den * twoPow exponent)
  if significand < twoPow 53 then
    ofParts? negative significand exponent
  else
    ofParts? negative (significand / 2) (exponent + 1)

/-- The positive or negative zero. -/
def zero (negative : Bool) : Binary64 :=
  ⟨negative, 0, 0, by decide, by decide, .inl rfl⟩

/-- The rounded product of two magnitudes, or nothing beyond the greatest finite number. -/
def mulMagnitude? (x y : Binary64) : Option Binary64 :=
  ofRatio? false (x.units * y.units) (one * one)

/-- The rounded quotient of two magnitudes, or nothing beyond the greatest finite number. -/
def divMagnitude? (x y : Binary64) : Option Binary64 :=
  ofRatio? false x.units y.units

/-! ## Integers -/

/-- The greatest signed 64-bit integer. -/
def greatestInt64 : Nat := twoPow 63 - 1

/-- The number nearest to an integer, or nothing if that is beyond the greatest finite number. -/
def ofInt? (n : Int) : Option Binary64 := ofRatio? (n < 0) n.natAbs 1

/-- Whether a number is less in magnitude than the number nearest to the integer `n`. Every
number is if that is beyond the greatest finite one. -/
def isBelow (x : Binary64) (n : Nat) : Bool :=
  (ofInt? n).all fun bound => x.units < bound.units

/-- What a number has behind the point, in units. -/
def fraction (x : Binary64) : Nat := x.units % one

/-- The integer before the point of a number, or the signed 64-bit integer nearest to it. -/
def toInt64 (x : Binary64) : Int :=
  max (-(greatestInt64 : Int) - 1) (min greatestInt64 (x.scaled.tdiv one))

/-- A number without a fraction is a whole number of ones. -/
theorem fraction_eq_zero_iff (x : Binary64) :
    x.fraction = 0 ↔ ∃ n : Int, x.scaled = n * (one : Int) := by
  have hdvd : x.fraction = 0 ↔ (one : Int) ∣ x.scaled := by
    unfold fraction scaled
    rw [← Nat.dvd_iff_mod_eq_zero]
    split <;> simp [Int.natCast_dvd_natCast]
  rw [hdvd]
  exact ⟨fun ⟨n, hn⟩ => ⟨n, hn.trans (Int.mul_comm _ _)⟩,
    fun ⟨n, hn⟩ => ⟨n, hn.trans (Int.mul_comm _ _)⟩⟩

/-- The number nearest to the greatest signed 64-bit integer is one more than that integer. -/
theorem isBelow_greatestInt64_iff (x : Binary64) :
    x.isBelow greatestInt64 ↔ x.units < twoPow 63 * one := by
  have hbound : ofInt? greatestInt64 =
      some ⟨false, twoPow 52, 1085, by decide, by decide, by decide⟩ := by decide +kernel
  have hunits : twoPow 52 * twoPow 1085 = twoPow 63 * one := by decide +kernel
  rw [isBelow, hbound, Option.all_some, decide_eq_true_iff, ← hunits]
  rfl

/-- A whole number within 64 bits is taken over as it is. -/
theorem toInt64_of_scaled {x : Binary64} {n : Int} (h : x.scaled = n * (one : Int))
    (hn : n.natAbs < twoPow 63) : x.toInt64 = n := by
  have hone : (one : Int) ≠ 0 := by have := one_pos; omega
  have hgreatest : greatestInt64 + 1 = twoPow 63 := by decide
  unfold toInt64
  rw [h, Int.mul_tdiv_cancel _ hone]
  omega

end Binary64

end Stencil
