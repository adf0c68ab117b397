/-!
# Hexadecimal digits

Codes of characters and octets are written in hexadecimal digits. Readers take letters of
either case.

## Main results

* `hexDigit?_digitChar` — the digit that a small number is written as has that number as its
  value.
-/

namespace Stencil.Text

/-- The value of a hexadecimal digit of either case. -/
def hexDigit? (c : Char) : Option Nat :=
  if '0' ≤ c ∧ c ≤ '9' then some (c.toNat - '0'.toNat)
  else if 'a' ≤ c ∧ c ≤ 'f' then some (c.toNat - 'a'.toNat + 10)
  else if 'A' ≤ c ∧ c ≤ 'F' then some (c.toNat - 'A'.toNat + 10)
  else none

/-- The value of a list of hexadecimal digits, the highest place first. -/
def hexValue? (digits : List Char) : Option Nat :=
  digits.foldl (fun n? c => n?.bind fun n => (hexDigit? c).map (16 * n + ·)) (some 0)

/-- A written digit is read back. -/
theorem hexDigit?_digitChar {n : Nat} (h : n < 16) :
    hexDigit? (Nat.digitChar n) = some n := by
  revert n
  decide

end Stencil.Text
