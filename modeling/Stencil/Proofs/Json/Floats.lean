import Stencil.Proofs.Json.Numbers
import Stencil.Value.Text

/-!
# The text of floats

The digits of a float are looked for on a decimal grid of which some point rounds to it. Zero does
not round to any other number, so the digits that are found are not those of zero; without the
zeros behind them they still start with a digit other than zero. Laid out with a point or an
exponent they are a number that any reader of numbers takes.

## Main results

* `Binary64.shortest_digits` — the digits of a float other than zero.
* `isNumber_json` — every number is written as one.
-/

namespace Stencil

open Json

namespace Binary64

variable {x : Binary64}

/-! ## Digits -/

/-- Zero is not in the interval of numbers that round to another float. -/
theorem roundsTo_zero (h : x.significand ≠ 0) : x.roundsTo 0 = false := by
  have hUnits : twoPow x.exponent ≤ x.units :=
    Nat.le_mul_of_pos_left _ (Nat.pos_of_ne_zero h)
  have hGap : 0 < twoPow x.exponent := twoPow_pos x.exponent
  have hLow : 0 < (4 * x.units - if x.significand = twoPow 52 ∧ 0 < x.exponent then
      twoPow x.exponent else 2 * twoPow x.exponent) * tenPow places := by
    refine Nat.mul_pos ?_ (by decide +kernel)
    split <;> omega
  unfold roundsTo
  dsimp only
  rw [Nat.zero_mul]
  split
  · exact decide_eq_false fun hIn => by omega
  · exact decide_eq_false fun hIn => by omega

theorem gridDigits?_ne_zero {place digits : Nat} (h : x.significand ≠ 0)
    (hGrid : x.gridDigits? place = some digits) : digits ≠ 0 := by
  have hRounds : x.roundsTo (digits * tenPow place) = true := by
    unfold gridDigits? at hGrid
    dsimp only at hGrid
    split at hGrid
    · rename_i hNearest
      rwa [← Option.some.inj hGrid]
    · split at hGrid
      · rename_i hBelow
        rwa [← Option.some.inj hGrid]
      · split at hGrid
        · rename_i hAbove
          rwa [← Option.some.inj hGrid]
        · cases hGrid
  rintro rfl
  rw [Nat.zero_mul, roundsTo_zero h] at hRounds
  cases hRounds

theorem coarsest_ne_zero (h : x.significand ≠ 0) (place : Nat) : (x.coarsest place).1 ≠ 0 := by
  induction place with
  | zero =>
      -- On the finest grid every float but zero has a point below it that is not zero.
      have hUnits : 0 < x.units := Nat.pos_of_ne_zero (mt (units_eq_zero_iff x).mp h)
      have hPlaces : one ≤ tenPow places := by decide +kernel
      have hBound : one ≤ x.units * tenPow places :=
        Nat.le_trans hPlaces (Nat.le_mul_of_pos_left _ hUnits)
      exact Nat.ne_of_gt (Nat.div_pos hBound one_pos)
  | succ place ih =>
      unfold coarsest
      split
      · rename_i digits hGrid
        exact gridDigits?_ne_zero h hGrid
      · exact ih

theorem trimZeros_cons {d : Char} (h : d ≠ '0') (ds : List Char) :
    trimZeros (d :: ds) = d :: trimZeros ds := by
  unfold trimZeros
  rw [List.reverse_cons, List.dropWhile_append]
  split
  · rename_i hEmpty
    simp [List.isEmpty_iff.mp hEmpty, h]
  · simp

theorem mem_of_mem_trimZeros {d : Char} {ds : List Char} (h : d ∈ trimZeros ds) : d ∈ ds := by
  have hReverse := List.mem_reverse.mp h
  exact List.mem_reverse.mp ((List.dropWhile_sublist _).subset hReverse)

theorem exists_shortest_digits (x : Binary64) :
    ∃ place, x.shortest.digits = trimZeros (Nat.toDigits 10 (x.coarsest place).1) :=
  ⟨_, rfl⟩

/-- **The digits of a float** other than zero do not start with a zero. -/
theorem shortest_digits (h : x.significand ≠ 0) :
    IsRow x.shortest.digits ∧ x.shortest.digits.head? ≠ some '0' := by
  obtain ⟨place, hDigits⟩ := x.exists_shortest_digits
  have hFirst := head?_toDigits_ne (coarsest_ne_zero h place)
  obtain ⟨hNil, hRow⟩ := isRow_toDigits (x.coarsest place).1
  rw [hDigits]
  obtain ⟨d, ds, hCons⟩ := List.exists_cons_of_ne_nil hNil
  rw [hCons] at hFirst hRow ⊢
  have hOther : d ≠ '0' := fun hSame => hFirst (by rw [hSame]; rfl)
  refine ⟨⟨?_, fun c hMem => hRow c (mem_of_mem_trimZeros hMem)⟩, ?_⟩
  · simp [trimZeros_cons hOther]
  · simpa [trimZeros_cons hOther] using hOther

/-! ## Layout -/

namespace Decimal

variable {d : Decimal} {sign : List Char}

theorem isNumber_positional (hRow : IsRow d.digits) (hFirst : d.digits.head? ≠ some '0')
    (hSign : sign = [] ∨ sign = ['-']) : IsNumber (sign ++ d.positional) := by
  obtain ⟨hNil, hDigits⟩ := hRow
  have hZeros : ∀ n, ∀ c ∈ zeros n, c.isDigit = true := by
    intro n c hMem
    rw [List.eq_of_mem_replicate hMem]
    rfl
  unfold positional
  split
  · have hFraction : IsRow (zeros d.point.natAbs ++ d.digits) :=
      ⟨by simp [hNil], fun c hMem => (List.mem_append.mp hMem).elim (hZeros _ c) (hDigits c)⟩
    have hNumber := IsNumber.intro hSign (.inl rfl) (.inr ⟨_, rfl, hFraction⟩) (.inl rfl)
    rwa [List.append_nil] at hNumber
  · rename_i hPoint
    dsimp only
    split
    · have hWhole : IsWhole (d.digits ++ zeros (d.point.natAbs - d.digits.length)) := by
        refine .inr ⟨⟨by simp [hNil], fun c hMem => ?_⟩, ?_⟩
        · exact (List.mem_append.mp hMem).elim (hDigits c) (hZeros _ c)
        · rwa [List.head?_append, List.head?_eq_some_head hNil, Option.some_or,
            ← List.head?_eq_some_head hNil]
      have hNumber := IsNumber.intro hSign hWhole (.inr ⟨_, rfl, isRow_zero⟩) (.inl rfl)
      rwa [List.append_nil] at hNumber
    · rename_i hLonger
      have hWhole : IsWhole (d.digits.take d.point.natAbs) := by
        refine .inr ⟨⟨?_, fun c hMem => hDigits c (List.mem_of_mem_take hMem)⟩, ?_⟩
        · rw [Ne, List.take_eq_nil_iff]
          rintro (hNone | hNone)
          · omega
          · exact hNil hNone
        · rwa [List.head?_take, if_neg (by omega)]
      have hFraction : IsRow (d.digits.drop d.point.natAbs) :=
        ⟨by rw [Ne, List.drop_eq_nil_iff]; omega,
          fun c hMem => hDigits c (List.mem_of_mem_drop hMem)⟩
      have hNumber := IsNumber.intro hSign hWhole (.inr ⟨_, rfl, hFraction⟩) (.inl rfl)
      rwa [List.append_nil] at hNumber

theorem isNumber_exponential (hRow : IsRow d.digits) (hFirst : d.digits.head? ≠ some '0')
    (hSign : sign = [] ∨ sign = ['-']) : IsNumber (sign ++ d.exponential) := by
  obtain ⟨hNil, hDigits⟩ := hRow
  have hWhole : IsWhole (d.digits.take 1) := by
    refine .inr ⟨⟨by simp [hNil], fun c hMem => hDigits c (List.mem_of_mem_take hMem)⟩, ?_⟩
    rwa [List.head?_take, if_neg (by decide)]
  have hFraction : IsFraction (if d.digits.length ≤ 1 then [] else '.' :: d.digits.drop 1) := by
    split
    · exact .inl rfl
    · exact .inr ⟨_, rfl, by rw [Ne, List.drop_eq_nil_iff]; omega,
        fun c hMem => hDigits c (List.mem_of_mem_drop hMem)⟩
  have hExponent : IsExponent ('e' :: (if d.point - 1 < 0 then '-' else '+') ::
      Nat.toDigits 10 (d.point - 1).natAbs) := by
    refine .inr ⟨'e', [if d.point - 1 < 0 then '-' else '+'], _, rfl, .inl rfl, ?_,
      isRow_toDigits _⟩
    split
    · exact .inr (.inr rfl)
    · exact .inr (.inl rfl)
  have hNumber := IsNumber.intro hSign hWhole hFraction hExponent
  rwa [← List.append_assoc (d.digits.take 1)] at hNumber

theorem isNumber_layout (hRow : IsRow d.digits) (hFirst : d.digits.head? ≠ some '0')
    (hSign : sign = [] ∨ sign = ['-']) : IsNumber (sign ++ d.layout) := by
  unfold layout
  split
  · exact isNumber_positional hRow hFirst hSign
  · exact isNumber_exponential hRow hFirst hSign

end Decimal

/-- The text of a float is a number. -/
theorem isNumber_text (x : Binary64) : IsNumber x.text.toList := by
  have hText : ∃ sign, (sign = [] ∨ sign = ['-']) ∧
      x.text.toList = sign ++ if x.isZero then ['0', '.', '0'] else x.shortest.layout := by
    unfold text
    dsimp only
    cases x.negative
    · exact ⟨[], .inl rfl, by simp⟩
    · exact ⟨['-'], .inr rfl, by simp⟩
  obtain ⟨sign, hSign, hText⟩ := hText
  rw [hText]
  split
  · have hNumber := IsNumber.intro hSign (.inl rfl) (.inr ⟨_, rfl, isRow_zero⟩) (.inl rfl)
    rwa [List.append_nil] at hNumber
  · rename_i hZero
    obtain ⟨hRow, hFirst⟩ := x.shortest_digits (by simpa [isZero] using hZero)
    exact Decimal.isNumber_layout hRow hFirst hSign

end Binary64

/-- **Every number is written as one.** -/
theorem isNumber_json (n : Number) : IsNumber n.json.toList := by
  cases n with
  | integer n => exact isNumber_ofInt n
  | float x => exact x.isNumber_text

end Stencil
