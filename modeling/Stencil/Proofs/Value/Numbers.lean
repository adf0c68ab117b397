import Mathlib.Algebra.Order.Field.Basic
import Mathlib.Algebra.Order.Field.Power
import Mathlib.Data.Rat.Cast.Order
import Mathlib.Tactic.Ring
import Stencil.Proofs.Numeral.Digits
import Stencil.Value.Text

/-!
# Numbers by their value

An integer and a float are different data even where they are equal in size, but what a template
makes of a number depends on its size alone, as long as that is below `2 ^ 63`. An integer is put
to the test as the float nearest to it, and rounding never ends at zero unless it starts there.
A float is shown as an integer if it is one and is below the float nearest to the greatest signed
64-bit integer. That float is `2 ^ 63` and so beyond the integers of 64 bits, but it is not below
itself: what is shown is always the whole value of the float.

## Main results

* `isTruthy_number_iff`, `isTruthy_eq_false_iff` — of numbers only zeros are not true, and which
  other values are not.
* `isNumeral_display_iff` — which numbers are shown as integers.
* `display_eq_ofInt` — the integer that they are shown as.
* `numbers_count_by_value` — numbers of one value below `2 ^ 63` count as the same.
-/

namespace Stencil

namespace Binary64

variable {x y : Binary64}

theorem units_eq (x : Binary64) : x.units = x.significand * 2 ^ x.exponent := by
  rw [units, twoPow, Nat.one_shiftLeft]

/-! ## Normal form -/

/-- Of two numbers of one magnitude the one with the greater exponent has the smaller significand,
but less than half of a significand is left for normal form. -/
theorem exponent_le_of_units_eq (h : x.units = y.units) : x.exponent ≤ y.exponent := by
  by_contra hGreater
  obtain ⟨d, hExponent⟩ := Nat.exists_eq_add_of_lt (not_le.mp hGreater)
  have hLarge : twoPow 52 ≤ x.significand := x.normalised.resolve_left (by omega)
  have hSignificand : y.significand = x.significand * 2 * 2 ^ d := by
    apply Nat.eq_of_mul_eq_mul_right (Nat.two_pow_pos y.exponent)
    rw [← units_eq, ← h, units_eq, hExponent, Nat.add_assoc, Nat.pow_add, Nat.pow_succ]
    ac_rfl
  have hSmall : y.significand < twoPow 53 := y.significand_lt
  have hDouble : x.significand * 2 ≤ x.significand * 2 * 2 ^ d :=
    Nat.le_mul_of_pos_right _ (Nat.two_pow_pos d)
  have hPowers : twoPow 53 = twoPow 52 * 2 := by decide
  omega

/-- **A magnitude has one normal form.** -/
theorem eq_of_units_eq (h : x.units = y.units) :
    x.significand = y.significand ∧ x.exponent = y.exponent := by
  have hExponent : x.exponent = y.exponent :=
    Nat.le_antisymm (exponent_le_of_units_eq h) (exponent_le_of_units_eq h.symm)
  refine ⟨?_, hExponent⟩
  apply Nat.eq_of_mul_eq_mul_right (Nat.two_pow_pos x.exponent)
  rw [← units_eq, h, units_eq, hExponent]

/-- No two numbers have one value, save for the zeros. -/
theorem eq_of_scaled_eq (h : x.scaled = y.scaled) (hZero : x.scaled ≠ 0) : x = y := by
  have hSame : x.negative = y.negative ∧ x.units = y.units := by
    unfold scaled at h hZero
    cases hx : x.negative <;> cases hy : y.negative <;>
      simp only [hx, hy, if_true, Bool.false_eq_true, Bool.true_eq_false, if_false, true_and,
        false_and] at h hZero ⊢ <;> omega
  obtain ⟨hSignificand, hExponent⟩ := eq_of_units_eq hSame.2
  cases x
  cases y
  simp_all

/-! ## Rounding -/

theorem div_le_divNearest (num den : Nat) : num / den ≤ divNearest num den := by
  unfold divNearest
  dsimp only
  split <;> omega

theorem divNearest_le (num den : Nat) : divNearest num den ≤ num / den + 1 := by
  unfold divNearest
  dsimp only
  split <;> omega

theorem exists_ofParts? (negative : Bool) (significand exponent : Nat)
    (hLarge : twoPow 52 ≤ significand) (hSmall : significand < twoPow 53)
    (hExponent : exponent ≤ 2045) :
    ∃ x, ofParts? negative significand exponent = some x ∧ x.significand = significand :=
  ⟨_, by rw [ofParts?, dif_pos ⟨hSmall, hExponent, .inr hLarge⟩], rfl⟩

/-- The exponent is chosen for a significand of 53 bits. -/
theorem div_twoPow_log2 {a : Nat} (ha : twoPow 52 ≤ a) :
    twoPow 52 ≤ a / twoPow (a.log2 - 52) ∧ a / twoPow (a.log2 - 52) < twoPow 53 := by
  have hPower : ∀ k, twoPow k = 2 ^ k := Nat.one_shiftLeft
  rw [hPower] at ha
  simp only [hPower]
  have hPos : a ≠ 0 := by
    have := Nat.two_pow_pos 52
    omega
  have hLog : 52 ≤ a.log2 := (Nat.le_log2 hPos).mpr ha
  have hSplit : ∀ k, 52 ≤ k → 2 ^ k * 2 ^ (a.log2 - 52) = 2 ^ (a.log2 + (k - 52)) := by
    intro k hk
    rw [← Nat.pow_add]
    congr 1
    omega
  constructor
  · rw [Nat.le_div_iff_mul_le (Nat.two_pow_pos _), hSplit 52 (Nat.le_refl 52)]
    exact Nat.log2_self_le hPos
  · rw [Nat.div_lt_iff_lt_mul (Nat.two_pow_pos _), hSplit 53 (by decide)]
    exact Nat.lt_log2_self

theorem log2_mul_twoPow_lt {a k : Nat} (ha : 0 < a) (hlt : a < twoPow k) (m : Nat) :
    (a * twoPow m).log2 < k + m := by
  rw [twoPow, Nat.one_shiftLeft] at hlt
  have hPos := twoPow_pos m
  rw [Nat.log2_lt (Nat.mul_pos ha hPos).ne', Nat.pow_add, twoPow, Nat.one_shiftLeft]
  exact Nat.mul_lt_mul_of_pos_right hlt (Nat.two_pow_pos m)

/-- **Every integer of 64 bits has a nearest float**, and rounding never ends at zero unless it
starts there. -/
theorem exists_ofInt? {n : Int} (hFits : Number.Fits n) (hn : n ≠ 0) :
    ∃ x, ofInt? n = some x ∧ x.significand ≠ 0 := by
  have hAbs : 1 ≤ n.natAbs ∧ n.natAbs < twoPow 65 := by
    have hBounds := hFits
    simp only [Number.Fits, twoPow, Nat.one_shiftLeft] at hBounds ⊢
    omega
  have hLarge : twoPow 52 ≤ n.natAbs * one :=
    calc twoPow 52 ≤ one := by decide
      _ = 1 * one := (Nat.one_mul one).symm
      _ ≤ n.natAbs * one := Nat.mul_le_mul_right one hAbs.1
  have hExponent : (n.natAbs * one).log2 < 65 + 1074 := log2_mul_twoPow_lt hAbs.1 hAbs.2 1074
  obtain ⟨hNormal, hShort⟩ := div_twoPow_log2 hLarge
  have hTwice : twoPow 53 = 2 * twoPow 52 := by decide
  have hPos := twoPow_pos 52
  unfold ofInt? ofRatio?
  dsimp only
  rw [Nat.div_one, Nat.one_mul]
  generalize n.natAbs * one = a at hExponent hNormal hShort ⊢
  have hPlace : a.log2 - 52 ≤ 2044 := by omega
  generalize a.log2 - 52 = e at hPlace hNormal hShort ⊢
  have hLower := div_le_divNearest a (twoPow e)
  have hUpper := divNearest_le a (twoPow e)
  split
  · rename_i hFit
    obtain ⟨x, hParts, hSignificand⟩ := exists_ofParts? (n < 0) (divNearest a (twoPow e)) e
      (hNormal.trans hLower) hFit (by omega)
    exact ⟨x, hParts, by omega⟩
  · -- rounding up has carried into the next place
    obtain ⟨x, hParts, hSignificand⟩ := exists_ofParts? (n < 0) (divNearest a (twoPow e) / 2)
      (e + 1) (by omega) (by omega) (by omega)
    exact ⟨x, hParts, by omega⟩

/-! ## Exact values -/

/-- The exact value of a number. -/
def value (x : Binary64) : ℚ :=
  (if x.negative then -1 else 1) * x.significand * 2 ^ ((x.exponent : ℤ) - 1074)

theorem cast_twoPow (k : Nat) : ((twoPow k : Nat) : ℚ) = 2 ^ k := by
  rw [twoPow, Nat.one_shiftLeft, Nat.cast_pow, Nat.cast_ofNat]

theorem cast_one_pos : (0 : ℚ) < (one : Nat) := Nat.cast_pos.mpr one_pos

theorem zpow_sub_natCast (e k : Nat) :
    (2 : ℚ) ^ ((e : ℤ) - k) = 2 ^ e / (twoPow k : Nat) := by
  rw [cast_twoPow, zpow_sub₀ two_ne_zero, zpow_natCast, zpow_natCast]

theorem value_eq_scaled_div (x : Binary64) : x.value = x.scaled / (one : Nat) := by
  have hPower : (2 : ℚ) ^ ((x.exponent : ℤ) - 1074) = 2 ^ x.exponent / (one : Nat) :=
    zpow_sub_natCast x.exponent 1074
  have hUnits : ((x.units : Nat) : ℚ) = x.significand * 2 ^ x.exponent := by
    rw [units_eq, Nat.cast_mul, Nat.cast_pow, Nat.cast_ofNat]
  rw [value, hPower, scaled]
  split
  · rw [Int.cast_neg, Int.cast_natCast, hUnits]
    ring
  · rw [Int.cast_natCast, hUnits]
    ring

theorem value_eq_zero_iff : x.value = 0 ↔ x.significand = 0 := by
  have hSign : (if x.negative then (-1 : ℚ) else 1) ≠ 0 := by
    split <;> norm_num
  rw [value, mul_eq_zero, mul_eq_zero, Nat.cast_eq_zero]
  simp [hSign, zpow_ne_zero]

/-- No two numbers have one exact value, save for the zeros. -/
theorem eq_of_value_eq (h : x.value = y.value) (hZero : x.value ≠ 0) : x = y := by
  rw [value_eq_scaled_div] at hZero
  rw [value_eq_scaled_div, value_eq_scaled_div, div_left_inj' cast_one_pos.ne', Int.cast_inj] at h
  exact eq_of_scaled_eq h fun hScaled => hZero (by rw [hScaled, Int.cast_zero, zero_div])

theorem value_eq_intCast_iff {k : Int} : x.value = k ↔ x.scaled = k * (one : Int) := by
  rw [value_eq_scaled_div, div_eq_iff cast_one_pos.ne']
  norm_cast

theorem fraction_eq_zero_iff_value : x.fraction = 0 ↔ ∃ k : Int, x.value = k := by
  rw [fraction_eq_zero_iff]
  exact exists_congr fun k => value_eq_intCast_iff.symm

theorem isBelow_greatestInt64_iff_value : x.isBelow greatestInt64 ↔ |x.value| < 2 ^ 63 := by
  have hAbs : |(x.scaled : ℚ)| = (x.units : Nat) := by
    unfold scaled
    split <;> simp
  rw [isBelow_greatestInt64_iff, value_eq_scaled_div, abs_div, hAbs, Nat.abs_cast,
    div_lt_iff₀ cast_one_pos, ← cast_twoPow]
  norm_cast

/-- The test that a float is shown as an integer, by its value. -/
theorem guard_iff :
    (x.fraction = 0 ∧ x.isBelow greatestInt64) ↔
      (∃ k : Int, x.value = k) ∧ |x.value| < 2 ^ 63 := by
  rw [fraction_eq_zero_iff_value, isBelow_greatestInt64_iff_value]

theorem natAbs_lt_of_abs_lt {k : Int} (h : |(k : ℚ)| < 2 ^ 63) : k.natAbs < twoPow 63 := by
  have hAbs : |k| < 2 ^ 63 := by exact_mod_cast h
  have hPower : twoPow 63 = 2 ^ 63 := by decide
  have hBounds := abs_lt.mp hAbs
  omega

/-- **Nothing is cut off, and nothing is out of bounds**, where a float passes the test. -/
theorem toInt64_eq_value (h : x.fraction = 0 ∧ x.isBelow greatestInt64) :
    (x.toInt64 : ℚ) = x.value := by
  obtain ⟨⟨k, hValue⟩, hSmall⟩ := guard_iff.mp h
  rw [hValue] at hSmall ⊢
  rw [toInt64_of_scaled (value_eq_intCast_iff.mp hValue) (natAbs_lt_of_abs_lt hSmall)]

/-- The text of a float is no integer numeral: it has a point or an exponent. -/
theorem not_isNumeral_text (x : Binary64) : ¬ Numeral.IsNumeral x.text := by
  intro h
  rcases text_point_or_exponent x with hPoint | hExponent
  · exact absurd (h.isDigit_or_minus '.' hPoint) (by decide)
  · exact absurd (h.isDigit_or_minus 'e' hExponent) (by decide)

end Binary64

namespace Number

/-- The exact value of a number, whatever its kind. -/
def value : Number → ℚ
  | .integer n => n
  | .float x => x.value

/-! ## Truth -/

/-- **Only zeros are not true.** -/
theorem isTruthy_number_iff (n : Number) :
    (Value.number n).isTruthy = false ↔ n.value = 0 := by
  cases n with
  | @integer n fits =>
      rw [value, Int.cast_eq_zero]
      by_cases hZero : n = 0
      · subst hZero
        refine iff_of_true ?_ rfl
        show (Binary64.ofInt? 0).any (fun x => !x.isZero) = false
        decide +kernel
      · obtain ⟨x, hNearest, hSignificand⟩ := Binary64.exists_ofInt? fits hZero
        refine iff_of_false ?_ hZero
        show ¬ (Binary64.ofInt? n).any (fun x => !x.isZero) = false
        simp [hNearest, Binary64.isZero, hSignificand]
  | float x =>
      show (!x.isZero) = false ↔ x.value = 0
      rw [Binary64.value_eq_zero_iff]
      simp [Binary64.isZero]

/-- The numbers of the value zero: an integer, and a float of each sign. -/
theorem value_eq_zero_iff {n : Number} :
    n.value = 0 ↔ n = .ofInt 0 ∨ ∃ negative, n = .float (.zero negative) := by
  cases n with
  | @integer k fits =>
      rw [value, Int.cast_eq_zero]
      constructor
      · rintro rfl
        exact .inl rfl
      · rintro (hInteger | ⟨negative, hFloat⟩)
        · exact Number.integer.inj hInteger
        · cases hFloat
  | float x =>
      rw [value, Binary64.value_eq_zero_iff]
      constructor
      · intro hZero
        have hExponent : x.exponent = 0 := by
          have hPos := Binary64.twoPow_pos 52
          have hNormal := x.normalised
          omega
        refine .inr ⟨x.negative, ?_⟩
        cases x
        simp_all [Binary64.zero]
      · rintro (hInteger | ⟨negative, hFloat⟩)
        · cases hInteger
        · rw [Number.float.inj hFloat]
          rfl

/-- **The values that are not true**: null, `false`, the empty string and the zeros. -/
theorem isTruthy_eq_false_iff {v : Value} :
    v.isTruthy = false ↔ v = .null ∨ v = .bool false ∨ v = .string "" ∨
      v = .number (.ofInt 0) ∨ ∃ negative, v = .number (.float (.zero negative)) := by
  cases v with
  | number n => simp [isTruthy_number_iff, value_eq_zero_iff]
  | _ => simp [Value.isTruthy]

/-! ## Text -/

/-- **Which numbers are shown as integers**: the integers, and the floats that are whole and less
than `2 ^ 63` in size. -/
theorem isNumeral_display_iff (n : Number) :
    Numeral.IsNumeral n.display ↔
      (∃ k fits, n = @integer k fits) ∨ (∃ k : Int, n.value = k) ∧ |n.value| < 2 ^ 63 := by
  cases n with
  | integer k => exact iff_of_true (Numeral.isNumeral_ofInt k) (.inl ⟨k, _, rfl⟩)
  | float x =>
      rw [value, ← Binary64.guard_iff, display]
      split
      · rename_i hGuard
        exact iff_of_true (Numeral.isNumeral_ofInt _) (.inr hGuard)
      · rename_i hGuard
        exact iff_of_false (Binary64.not_isNumeral_text x) (by simp [hGuard])

/-- **The integer that a number is shown as** is its value. -/
theorem display_eq_ofInt {n : Number} {k : Int} (hValue : n.value = k)
    (hSmall : (∃ m fits, n = @integer m fits) ∨ |n.value| < 2 ^ 63) :
    n.display = Numeral.ofInt k := by
  cases n with
  | integer m =>
      rw [← Int.cast_injective (α := ℚ) hValue]
      rfl
  | float x =>
      have hAbs : |(k : ℚ)| < 2 ^ 63 := by
        rw [← hValue]
        exact hSmall.resolve_left (by simp)
      exact display_whole (Binary64.value_eq_intCast_iff.mp hValue)
        (Binary64.natAbs_lt_of_abs_lt hAbs)

/-- Numbers of one value below `2 ^ 63` have one text. Whole ones share it with the integer of
that value; others are floats, and no two floats but the zeros have one value. -/
theorem display_congr {m n : Number} (hValue : m.value = n.value) (hSmall : |n.value| < 2 ^ 63) :
    m.display = n.display := by
  by_cases hWhole : ∃ k : Int, n.value = k
  · obtain ⟨k, hInteger⟩ := hWhole
    rw [display_eq_ofInt hInteger (.inr hSmall),
      display_eq_ofInt (hValue.trans hInteger) (.inr (hValue ▸ hSmall))]
  · cases m with
    | integer k => exact absurd ⟨k, hValue.symm⟩ hWhole
    | float x =>
        cases n with
        | integer k => exact absurd ⟨k, rfl⟩ hWhole
        | float y =>
            -- Zero is whole, so the signs of the zeros do not matter here.
            have hZero : x.value ≠ 0 := by
              intro hZero
              exact hWhole ⟨0, hValue.symm.trans (hZero.trans Int.cast_zero.symm)⟩
            rw [Binary64.eq_of_value_eq hValue hZero]

/-- **Numbers count by their value.** Only numbers of the value zero are not true. Shown as integer
numerals are the integers, and the floats that are whole and below `2 ^ 63` in size; the numeral
is that of the exact value, with a sign only below zero, and the conversion to a signed 64-bit
integer that it is written from loses nothing. So two numbers of one value below `2 ^ 63` in size
are shown alike and are both true or both not. -/
theorem numbers_count_by_value :
    (∀ n : Number, (Value.number n).isTruthy = false ↔ n.value = 0) ∧
      (∀ (n : Number) (placeholder : String),
        (Numeral.IsNumeral ((Value.number n).display placeholder) ↔
          (∃ k fits, n = @integer k fits) ∨ (∃ k : Int, n.value = k) ∧ |n.value| < 2 ^ 63) ∧
        ∀ k : Int, n.value = k → ((∃ m fits, n = @integer m fits) ∨ |n.value| < 2 ^ 63) →
          (Value.number n).display placeholder = Numeral.ofInt k ∧
            Numeral.Signed ((Value.number n).display placeholder) k) ∧
      (∀ x : Binary64, x.fraction = 0 ∧ x.isBelow Binary64.greatestInt64 →
        (x.toInt64 : ℚ) = x.value) ∧
      ∀ m n : Number, m.value = n.value → |n.value| < 2 ^ 63 →
        (∀ placeholder,
          (Value.number m).display placeholder = (Value.number n).display placeholder) ∧
        (Value.number m).isTruthy = (Value.number n).isTruthy := by
  refine ⟨isTruthy_number_iff, fun n placeholder => ⟨isNumeral_display_iff n, ?_⟩,
    fun x => Binary64.toInt64_eq_value, ?_⟩
  · intro k hValue hSmall
    have hText : (Value.number n).display placeholder = Numeral.ofInt k :=
      display_eq_ofInt hValue hSmall
    rw [hText]
    exact ⟨rfl, Numeral.signed_ofInt k⟩
  · intro m n hValue hSmall
    refine ⟨fun placeholder => display_congr hValue hSmall, ?_⟩
    rw [Bool.eq_iff_iff, ← not_iff_not, Bool.not_eq_true, Bool.not_eq_true, isTruthy_number_iff,
      isTruthy_number_iff, hValue]

/-- The greatest float below `2 ^ 63`, in which the last place counts `1024`. -/
def greatestBelow : Binary64 :=
  ⟨false, Binary64.twoPow 53 - 1, 1084, by decide, by decide, by decide⟩

/-- That float is shown as the integer of its value; a negative zero is shown without its sign. -/
theorem numbers_count_by_value_greatestBelow :
    (greatestBelow.fraction = 0 ∧ greatestBelow.isBelow Binary64.greatestInt64) ∧
      (greatestBelow.toInt64 : ℚ) = greatestBelow.value ∧
      (Number.float greatestBelow).value = (9223372036854774784 : Int) ∧
      |(Number.float greatestBelow).value| < 2 ^ 63 ∧
      (Value.number (.float greatestBelow)).display "" = "9223372036854774784" ∧
      (Number.ofInt 9223372036854774784).value = (Number.float greatestBelow).value ∧
      (Value.ofInt 9223372036854774784).isTruthy =
        (Value.number (.float greatestBelow)).isTruthy ∧
      (Number.float (Binary64.zero true)).value = (0 : Int) ∧
      (Value.number (.float (Binary64.zero true))).display "" = "0" := by
  have hGuard : greatestBelow.fraction = 0 ∧ greatestBelow.isBelow Binary64.greatestInt64 := by
    decide +kernel
  have hValue : (Number.float greatestBelow).value = (9223372036854774784 : Int) :=
    Binary64.value_eq_intCast_iff.mpr (by decide +kernel)
  have hSmall : |(Number.float greatestBelow).value| < 2 ^ 63 := (Binary64.guard_iff.mp hGuard).2
  have hZero : (Number.float (Binary64.zero true)).value = (0 : Int) :=
    Binary64.value_eq_intCast_iff.mpr (by decide +kernel)
  have hZeroSmall : |(Number.float (Binary64.zero true)).value| < 2 ^ 63 := by
    rw [hZero]
    norm_num
  obtain ⟨-, hText, hWhole, hAlike⟩ := numbers_count_by_value
  exact ⟨hGuard, hWhole _ hGuard, hValue, hSmall, ((hText _ "").2 _ hValue (.inr hSmall)).1,
    hValue.symm, (hAlike (.ofInt 9223372036854774784) _ hValue.symm hSmall).2, hZero,
    ((hText _ "").2 0 hZero (.inr hZeroSmall)).1⟩

end Number

end Stencil
