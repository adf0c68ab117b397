import Stencil.Binary64.Decimal
import Stencil.Json.Quoted
import Stencil.Numeral
import Stencil.Value

/-!
# Text of values

A value has two texts. Its compact JSON text writes every value so that it can be read back:
strings quoted, members sorted by name, no blanks, floats always with a point or an exponent.
Its display text is what a template shows: a string as it is, null as a placeholder that
the caller chooses, a whole float as the integer it equals, and lists and objects in their
compact JSON text.

## Main results

* `display_whole` — a float that is a whole number below `2 ^ 63` shows as that integer.
-/

namespace Stencil

def Number.json : Number → String
  | .integer n => Numeral.ofInt n
  | .float x => x.text

/-- The text of a number in a template: a float without a fraction that is less in size than
the float nearest to the greatest signed 64-bit integer is shown as an integer, all other numbers
as in JSON. -/
def Number.display (number : Number) : String :=
  match number with
  | .integer _ => number.json
  | .float x =>
    if x.fraction = 0 ∧ x.isBelow Binary64.greatestInt64 then Numeral.ofInt x.toInt64
    else number.json

namespace Value

mutual

def json : Value → String
  | .null => "null"
  | .bool true => "true"
  | .bool false => "false"
  | .number n => n.json
  | .string s => Json.quote s
  | .array [] => "[]"
  | .array (v :: rest) => "[" ++ v.json ++ jsonItems rest ++ "]"
  | .object [] => "\x7b\x7d"
  | .object ((k, v) :: rest) =>
    "\x7b" ++ Json.quote k ++ ":" ++ v.json ++ jsonMembers rest ++ "\x7d"

/-- The texts of further items, each after a comma. -/
def jsonItems : List Value → String
  | [] => ""
  | v :: rest => "," ++ v.json ++ jsonItems rest

/-- The texts of further members, each after a comma. -/
def jsonMembers : List (String × Value) → String
  | [] => ""
  | (k, v) :: rest => "," ++ Json.quote k ++ ":" ++ v.json ++ jsonMembers rest

end

/-- The text of a value in a template; null shows as `placeholder`. -/
def display (placeholder : String) : Value → String
  | .null => placeholder
  | .bool b => if b then "true" else "false"
  | .number n => n.display
  | .string s => s
  | v => v.json

end Value

/-- A float that equals an integer below `2 ^ 63` in size shows as that integer. -/
theorem Number.display_whole {x : Binary64} {n : Int} (h : x.scaled = n * (Binary64.one : Int))
    (hn : n.natAbs < Binary64.twoPow 63) : (Number.float x).display = Numeral.ofInt n := by
  have hbelow : x.isBelow Binary64.greatestInt64 := by
    rw [Binary64.isBelow_greatestInt64_iff, Binary64.units_of_scaled h]
    exact Nat.mul_lt_mul_of_pos_right hn Binary64.one_pos
  rw [Number.display, if_pos ⟨(Binary64.fraction_eq_zero_iff x).mpr ⟨n, h⟩, hbelow⟩,
    Binary64.toInt64_of_scaled h hn]

end Stencil
