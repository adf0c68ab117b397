import Mathlib.Data.List.Induction
import Stencil.Numeral

/-!
# Digits and their value

What a row of digits stands for is fixed digit by digit: one digit stands for itself, and one
more digit behind a row counts ten times the row and the digit. There is no bound on the number
of digits, nor on their value.

## Main results

* `digits_iff` — the value of a row is the one that reading it computes.
* `digits_ofNat`, `signed_ofInt` — the numerals that are written stand for what they are written
  for.
* `position?_eq_some_iff_denotes` — a text names a position exactly if it is a numeral of it and
  it fits.
-/

namespace Stencil.Numeral

/-- The row `ds` of one or more decimal digits stands for `n`. -/
inductive Digits : List Char → Nat → Prop
  | single {d : Nat} (lt_ten : d < 10) : Digits [Nat.digitChar d] d
  | snoc {ds : List Char} {n d : Nat} (row : Digits ds n) (lt_ten : d < 10) :
      Digits (ds ++ [Nat.digitChar d]) (10 * n + d)

/-- A numeral of `n` as it may stand for a position: digits, perhaps behind one plus sign. -/
def Denotes (text : String) (n : Nat) : Prop :=
  Digits text.toList n ∨ ∃ ds, text.toList = '+' :: ds ∧ Digits ds n

/-- A numeral of an integer: digits, behind a minus sign exactly if it is negative. -/
def Signed (text : String) (n : Int) : Prop :=
  ∃ ds, text.toList = (if n < 0 then ['-'] else []) ++ ds ∧ Digits ds n.natAbs

/-- An integer numeral of whatever value: digits, perhaps behind a minus sign. -/
def IsNumeral (text : String) : Prop :=
  ∃ ds n, (text.toList = ds ∨ text.toList = '-' :: ds) ∧ Digits ds n

variable {ds : List Char} {text : String} {n : Nat}

/-! ## Rows of digits -/

/-- Every digit, by its value. -/
theorem exists_digitChar {c : Char} (h : c.isDigit = true) : ∃ d < 10, Nat.digitChar d = c := by
  have hBounds : 48 ≤ c.toNat ∧ c.toNat ≤ 57 := Char.isDigit_iff_toNat.mp h
  refine ⟨c.toNat - 48, by omega, Char.toNat_inj.mp ?_⟩
  rw [Nat.toNat_digitChar_of_lt_ten (by omega)]
  omega

theorem ofDigitChars_singleton {d : Nat} (h : d < 10) (m : Nat) :
    Nat.ofDigitChars 10 [Nat.digitChar d] m = 10 * m + d := by
  rw [Nat.ofDigitChars_cons_digitChar_of_lt_ten h, Nat.ofDigitChars_nil]

theorem Digits.ne_nil (h : Digits ds n) : ds ≠ [] := by
  cases h <;> simp

theorem Digits.isDigit (h : Digits ds n) : ∀ c ∈ ds, c.isDigit = true := by
  induction h with
  | single hDigit =>
      intro c hMem
      rw [List.mem_singleton.mp hMem, Nat.isDigit_digitChar, decide_eq_true hDigit]
  | snoc row hDigit ih =>
      intro c hMem
      rcases List.mem_append.mp hMem with hRow | hLast
      · exact ih c hRow
      · rw [List.mem_singleton.mp hLast, Nat.isDigit_digitChar, decide_eq_true hDigit]

theorem Digits.ofDigitChars (h : Digits ds n) : Nat.ofDigitChars 10 ds 0 = n := by
  induction h with
  | single hDigit => rw [ofDigitChars_singleton hDigit, Nat.mul_zero, Nat.zero_add]
  | snoc row hDigit ih => rw [Nat.ofDigitChars_append, ih, ofDigitChars_singleton hDigit]

/-- One or more digits always stand for a number, the one that reading them computes. -/
theorem digits_of_isDigit (hNil : ds ≠ []) (h : ∀ c ∈ ds, c.isDigit = true) :
    Digits ds (Nat.ofDigitChars 10 ds 0) := by
  induction ds using List.reverseRecOn with
  | nil => exact absurd rfl hNil
  | append_singleton row c ih =>
      obtain ⟨d, hDigit, rfl⟩ := exists_digitChar (h c (by simp))
      rw [Nat.ofDigitChars_append, ofDigitChars_singleton hDigit]
      by_cases hRow : row = []
      · rw [hRow, Nat.ofDigitChars_nil, Nat.mul_zero, Nat.zero_add]
        exact .single hDigit
      · exact .snoc (ih hRow fun c hMem => h c (by simp [hMem])) hDigit

/-- **The value of a row of digits** is the one that reading it computes. -/
theorem digits_iff :
    Digits ds n ↔ ds ≠ [] ∧ (∀ c ∈ ds, c.isDigit = true) ∧ Nat.ofDigitChars 10 ds 0 = n := by
  constructor
  · exact fun h => ⟨h.ne_nil, h.isDigit, h.ofDigitChars⟩
  · rintro ⟨hNil, hDigits, rfl⟩
    exact digits_of_isDigit hNil hDigits

/-- A row of digits stands for one number only. -/
theorem Digits.unique {m : Nat} (h : Digits ds m) (h' : Digits ds n) : m = n := by
  rw [← h.ofDigitChars, h'.ofDigitChars]

/-! ## Numerals that are written -/

theorem toList_ofNat (n : Nat) : (ofNat n).toList = Nat.toDigits 10 n := Nat.toList_repr

theorem digits_ofNat (n : Nat) : Digits (ofNat n).toList n := by
  rw [toList_ofNat, digits_iff]
  exact ⟨Nat.toDigits_ne_nil, fun c => Nat.isDigit_of_mem_toDigits (by decide) (by decide),
    Nat.ofDigitChars_toDigits (by decide) (by decide)⟩

/-- Different numbers have different numerals. -/
theorem ofNat_injective {m : Nat} (h : ofNat m = ofNat n) : m = n := by
  have hDigits := digits_ofNat m
  rw [h] at hDigits
  exact hDigits.unique (digits_ofNat n)

theorem signed_ofInt (n : Int) : Signed (ofInt n) n := by
  cases n with
  | ofNat n => exact ⟨_, rfl, digits_ofNat n⟩
  | negSucc n =>
      refine ⟨(ofNat (n + 1)).toList, ?_, digits_ofNat (n + 1)⟩
      rw [if_pos (Int.negSucc_lt_zero n), ofInt, String.toList_append]
      rfl

theorem isNumeral_ofInt (n : Int) : IsNumeral (ofInt n) := by
  obtain ⟨ds, hText, hDigits⟩ := signed_ofInt n
  refine ⟨ds, _, ?_, hDigits⟩
  split at hText
  · exact .inr hText
  · exact .inl hText

theorem IsNumeral.isDigit_or_minus (h : IsNumeral text) :
    ∀ c ∈ text.toList, c.isDigit = true ∨ c = '-' := by
  obtain ⟨ds, n, hText, hDigits⟩ := h
  intro c hMem
  rcases hText with hText | hText
  · rw [hText] at hMem
    exact .inl (hDigits.isDigit c hMem)
  · rw [hText] at hMem
    rcases List.mem_cons.mp hMem with hSign | hRow
    · exact .inr hSign
    · exact .inl (hDigits.isDigit c hRow)

/-! ## Numerals that are read -/

/-- The first digit of a row is no plus sign, so there is one way to take the sign off. -/
theorem Denotes.digits_unsigned (h : Denotes text n) : Digits (unsigned text.toList) n := by
  rcases h with hDigits | ⟨ds, hText, hDigits⟩
  · unfold unsigned
    split
    · rename_i rest hPlus
      have hSign := hDigits.isDigit '+' (by simp [hPlus])
      simp at hSign
    · exact hDigits
  · rw [hText]
    exact hDigits

theorem denotes_iff_unsigned : Denotes text n ↔ Digits (unsigned text.toList) n := by
  constructor
  · exact Denotes.digits_unsigned
  · intro h
    unfold unsigned at h
    split at h
    · rename_i rest hPlus
      exact .inr ⟨rest, hPlus, h⟩
    · exact .inl h

/-- A text is a numeral of one number only. -/
theorem Denotes.unique {m : Nat} (h : Denotes text m) (h' : Denotes text n) : m = n :=
  h.digits_unsigned.unique h'.digits_unsigned

/-- **Which texts name positions.** A text names a position exactly if it is a numeral of it and
the position fits; the value of a longer numeral is no position, and no smaller one either. -/
theorem position?_eq_some_iff_denotes :
    position? text = some n ↔ Denotes text n ∧ n < positionLimit := by
  rw [position?_eq_some_iff, denotes_iff_unsigned, digits_iff, List.all_eq_true, and_assoc,
    and_assoc]

end Stencil.Numeral
