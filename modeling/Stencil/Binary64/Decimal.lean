import Stencil.Binary64

/-!
# Decimal text of finite numbers

A number is written with the fewest decimal digits that are read back as the same number;
of several such digit strings the one nearest to the value is taken, and of two equally
near ones the even one. The search is exact: every quantity is a natural number of units
of `10 ^ -340`, which is below the last place of seventeen digits of any finite number.

The digits are then laid out either positionally, always with a fraction, or with an
exponent, depending on the power of ten of the first digit alone.

## Main results

* `layout_point_or_exponent` — the text of a number always contains a point or an exponent
  mark, so it is never mistaken for the text of an integer.
-/

namespace Stencil.Binary64

/-! ## Shortest digits -/

/-- The decimal places that the search keeps after the point. -/
def places : Nat := 340

/-- Whether `n` units of `10 ^ -places` round to the number `x`. The two ends of the interval
lie halfway to the neighbouring numbers, and round to the even significand. -/
def roundsTo (x : Binary64) (n : Nat) : Bool :=
  let gap := twoPow x.exponent
  let gapBelow := if x.significand = twoPow 52 ∧ 0 < x.exponent then gap else 2 * gap
  let low := (4 * x.units - gapBelow) * tenPow places
  let high := (4 * x.units + 2 * gap) * tenPow places
  let point := n * (4 * one)
  if x.significand % 2 = 0 then
    decide (low ≤ point ∧ point ≤ high)
  else
    decide (low < point ∧ point < high)

/-- The number of `10 ^ place` grid steps that is nearest to `x` among the two neighbours of
`x` on that grid which round to `x`. Places are counted in units of `10 ^ -places`. -/
def gridDigits? (x : Binary64) (place : Nat) : Option Nat :=
  let step := tenPow place
  let below := x.units * tenPow places / (one * step)
  let nearest := divNearest (x.units * tenPow places) (one * step)
  if roundsTo x (nearest * step) then some nearest
  else if roundsTo x (below * step) then some below
  else if roundsTo x ((below + 1) * step) then some (below + 1)
  else none

/-- The digits on the coarsest grid, from `place` downwards, that has a point which rounds
to `x`, together with the place of that grid. -/
def coarsest (x : Binary64) : Nat → Nat × Nat
  | 0 => (x.units * tenPow places / one, 0)
  | place + 1 =>
    match gridDigits? x (place + 1) with
    | some digits => (digits, place + 1)
    | none => coarsest x place

/-- A decimal numeral `0.d₁d₂d₃… * 10 ^ point`. -/
structure Decimal where
  digits : List Char
  /-- The number of digits before the point; it may be negative. -/
  point : Int
  deriving DecidableEq

/-- The digits without the zeros that end them. -/
def trimZeros (ds : List Char) : List Char :=
  (ds.reverse.dropWhile (· == '0')).reverse

/-- The shortest decimal that is read back as `x`, for a nonzero `x`. -/
def shortest (x : Binary64) : Decimal :=
  let size := (Nat.toDigits 10 (x.units * tenPow places / one)).length
  let found := coarsest x (size - 1)
  let ds := Nat.toDigits 10 found.1
  ⟨trimZeros ds, (ds.length + found.2 : Int) - places⟩

/-! ## Layout -/

/-- Whether a decimal is written positionally: the power of ten of its first digit lies
between `-5` and `15`. -/
def Decimal.isPositional (d : Decimal) : Bool := -5 < d.point && d.point ≤ 16

def zeros (n : Nat) : List Char := List.replicate n '0'

/-- Positional notation, always with a fraction. -/
def Decimal.positional (d : Decimal) : List Char :=
  if d.point ≤ 0 then
    '0' :: '.' :: (zeros d.point.natAbs ++ d.digits)
  else
    let whole := d.point.natAbs
    if d.digits.length ≤ whole then
      d.digits ++ zeros (whole - d.digits.length) ++ ['.', '0']
    else
      d.digits.take whole ++ '.' :: d.digits.drop whole

/-- Notation with an exponent that always shows its sign: one digit, a fraction if there
are more digits, and the power of ten of the first digit. -/
def Decimal.exponential (d : Decimal) : List Char :=
  let power := d.point - 1
  let fraction := if d.digits.length ≤ 1 then [] else '.' :: d.digits.drop 1
  let sign := if power < 0 then '-' else '+'
  d.digits.take 1 ++ fraction ++ 'e' :: sign :: Nat.toDigits 10 power.natAbs

def Decimal.layout (d : Decimal) : List Char :=
  if d.isPositional then d.positional else d.exponential

def text (x : Binary64) : String :=
  let magnitude := if x.isZero then ['0', '.', '0'] else x.shortest.layout
  String.ofList (if x.negative then '-' :: magnitude else magnitude)

/-- A laid-out decimal contains a point or an exponent mark. -/
theorem layout_point_or_exponent (d : Decimal) : '.' ∈ d.layout ∨ 'e' ∈ d.layout := by
  unfold Decimal.layout
  split
  · left
    unfold Decimal.positional
    split
    · simp
    · dsimp only
      split <;> simp
  · right
    simp [Decimal.exponential]

/-- The text of a number contains a point or an exponent mark. -/
theorem text_point_or_exponent (x : Binary64) :
    '.' ∈ x.text.toList ∨ 'e' ∈ x.text.toList := by
  have h := layout_point_or_exponent x.shortest
  unfold text
  cases x.negative <;> cases x.isZero <;> simp [h]

end Stencil.Binary64
