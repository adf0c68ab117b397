/-!
# Decimal numerals of positions

A position in a list is written as a decimal numeral without leading zeros, and read back
more generously: leading zeros and one leading plus sign are allowed. Positions are 64-bit
quantities, so a numeral whose value does not fit names no position at all; it never wraps
around onto a smaller one.

## Main results

* `position?_ofNat` — the numeral of a position that fits is read back as that position.
* `position?_eq_some_iff` — exactly which texts name a position, and which one.
-/

namespace Stencil.Numeral

/-- One more than the greatest position a numeral can name. -/
def positionLimit : Nat := 1 <<< 64

/-- The decimal numeral of `n`: digits only, and no leading zero unless `n` is zero. -/
def ofNat (n : Nat) : String := Nat.repr n

/-- The decimal numeral of an integer: a minus sign if it is negative, then its digits. -/
def ofInt : Int → String
  | .ofNat n => ofNat n
  | .negSucc n => "-" ++ ofNat (n + 1)

/-- The digits of a numeral, without its one optional leading plus sign. -/
def unsigned : List Char → List Char
  | '+' :: rest => rest
  | cs => cs

/-- The position that a text names: an optional plus sign, then one or more ASCII digits,
with a value below `positionLimit`. -/
def position? (text : String) : Option Nat :=
  let ds := unsigned text.toList
  if ds ≠ [] ∧ ds.all Char.isDigit ∧ Nat.ofDigitChars 10 ds 0 < positionLimit then
    some (Nat.ofDigitChars 10 ds 0)
  else
    none

/-! ## Reading -/

/-- A text names the position `n` exactly when it is a numeral of `n` and `n` fits. -/
theorem position?_eq_some_iff (text : String) (n : Nat) :
    position? text = some n ↔
      unsigned text.toList ≠ [] ∧ (unsigned text.toList).all Char.isDigit ∧
        Nat.ofDigitChars 10 (unsigned text.toList) 0 = n ∧ n < positionLimit := by
  simp only [position?]
  split
  · rename_i h
    simp only [Option.some.injEq]
    exact ⟨fun e => ⟨h.1, h.2.1, e, e ▸ h.2.2⟩, fun e => e.2.2.1⟩
  · rename_i h
    refine ⟨fun e => (by simp at e), fun e => ?_⟩
    exact absurd ⟨e.1, e.2.1, e.2.2.1.symm ▸ e.2.2.2⟩ h

/-- Digits carry no sign to remove. -/
private theorem unsigned_toDigits (n : Nat) :
    unsigned (Nat.toDigits 10 n) = Nat.toDigits 10 n := by
  unfold unsigned
  split
  · rename_i rest h
    have hmem : '+' ∈ Nat.toDigits 10 n := by rw [h]; simp
    have := Nat.isDigit_of_mem_toDigits (b := 10) (by decide) (by decide) hmem
    simp at this
  · rfl

/-- The numeral of a position that fits is read back as that position. -/
theorem position?_ofNat {n : Nat} (h : n < positionLimit) : position? (ofNat n) = some n := by
  rw [position?_eq_some_iff]
  have htext : (ofNat n).toList = Nat.toDigits 10 n := by
    simp [ofNat, Nat.repr_eq_ofList_toDigits]
  rw [htext, unsigned_toDigits]
  refine ⟨Nat.toDigits_ne_nil, ?_, Nat.ofDigitChars_toDigits (by decide) (by decide), h⟩
  rw [List.all_eq_true]
  exact fun c hc => Nat.isDigit_of_mem_toDigits (by decide) (by decide) hc

end Stencil.Numeral
