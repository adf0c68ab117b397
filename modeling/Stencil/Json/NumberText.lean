import Stencil.Json.Cursor
import Stencil.Value

/-!
# Reading numbers

A number is an optional minus sign, digits without a needless leading zero, and optionally a
fraction and an exponent. Without fraction and exponent it is an integer if it fits into 64
bits: from `-2 ^ 63` up to `2 ^ 64 - 1`. Every other number is a float, and so is minus zero.

A float is not always the one nearest to its text. Its significand takes digits only as long
as they fit into 64 bits; the digits of the whole part that follow count as zeros, and those
of the fraction are dropped. The significand is then rounded and multiplied or divided by a
rounded power of ten, with a rounding at each step.

## Main results

* `takeDigits_lt` — the significand fits into 64 bits.
-/

namespace Stencil.Json

/-- The parts of a number's text. -/
structure NumberText where
  negative : Bool
  whole : List Char
  /-- The digits after the point; none if there is no point. -/
  fraction : List Char
  /-- Whether the exponent is negative, and its digits; none if there is no exponent. -/
  exponent : Option (Bool × List Char)

/-! ## Values -/

/-- Extends `n` by the digits of a list as long as the result stays below `limit`; gives the
result and the digits that are left. -/
def takeDigits (limit n : Nat) : List Char → Nat × List Char
  | [] => (n, [])
  | d :: rest =>
    if n * 10 + (d.toNat - '0'.toNat) < limit then
      takeDigits limit (n * 10 + (d.toNat - '0'.toNat)) rest
    else
      (n, d :: rest)

/-- What was below the limit before stays below it. -/
theorem takeDigits_lt {limit n : Nat} (h : n < limit) (ds : List Char) :
    (takeDigits limit n ds).1 < limit := by
  induction ds generalizing n with
  | nil => exact h
  | cons d rest ih =>
    unfold takeDigits
    split
    · rename_i hlt
      exact ih hlt
    · exact h

/-- One more than the greatest significand. -/
def significandLimit : Nat := Binary64.twoPow 64

/-- One more than the greatest exponent that is read in full. -/
def exponentLimit : Nat := Binary64.twoPow 31

/-- The greatest power of ten that a significand is multiplied or divided by at once. -/
def greatestPower : Nat := 308

/-- The rounded power of ten. -/
def tenPower (k : Nat) : Option Binary64 := Binary64.ofRatio? false (Binary64.tenPow k) 1

/-- A magnitude divided `n` times by the greatest power of ten; zero stays what it is. -/
def divGreatest : Nat → Binary64 → Option Binary64
  | 0, x => some x
  | n + 1, x =>
    if x.isZero then some x
    else ((tenPower greatestPower).bind x.divMagnitude?).bind (divGreatest n)

/-- A magnitude divided by `10 ^ k`: first by the greatest power of ten as long as `k` exceeds
it, then by what is left. -/
def divTenPower (x : Binary64) (k : Nat) : Option Binary64 :=
  let n := (k - 1) / greatestPower
  (divGreatest n x).bind fun y => (tenPower (k - n * greatestPower)).bind y.divMagnitude?

/-- The float that a significand and a power of ten stand for, or nothing if it is beyond the
greatest finite number. -/
def scale? (significand : Nat) (exponent : Int) : Option Binary64 :=
  (Binary64.ofRatio? false significand 1).bind fun x =>
    match exponent with
    | .ofNat k =>
      if k ≤ greatestPower then (tenPower k).bind x.mulMagnitude?
      else if x.isZero then some x
      else none
    | .negSucc k => divTenPower x (k + 1)

def signed (negative : Bool) (x : Binary64) : Binary64 := if negative then x.neg else x

namespace NumberText

/-- The value of the exponent, without its sign, and the digits it has no room for. -/
def power (t : NumberText) : Nat × List Char :=
  match t.exponent with
  | none => (0, [])
  | some (_, ds) => takeDigits exponentLimit 0 ds

def signedPower (t : NumberText) : Int :=
  match t.exponent with
  | some (true, _) => -(t.power.1 : Int)
  | _ => t.power.1

def parts (t : NumberText) : Nat × Int :=
  let (n, zeros) := takeDigits significandLimit 0 t.whole
  let (m, dropped) := takeDigits significandLimit n t.fraction
  (m, (zeros.length : Int) - (t.fraction.length - dropped.length : Nat) + t.signedPower)

/-- The integer that a number without fraction and exponent stands for, if it fits. -/
def integer? (t : NumberText) : Option Number :=
  match t.fraction, t.exponent, h : takeDigits significandLimit 0 t.whole with
  | [], none, (n, []) =>
    have hLimit : n < Binary64.twoPow 64 := by
      have hTaken := takeDigits_lt (Binary64.twoPow_pos 64) t.whole
      rwa [← significandLimit, h] at hTaken
    if !t.negative then
      some (@Number.integer n ⟨by omega, by exact_mod_cast hLimit⟩)
    else if hNegative : 0 < n ∧ n ≤ Binary64.twoPow 63 then
      some (@Number.integer (-n) ⟨by omega, by omega⟩)
    else none
  | _, _, _ => none

/-- The number that a text stands for, or nothing if it is beyond the greatest finite one. -/
def number? (t : NumberText) : Option Number :=
  match t.integer? with
  | some n => some n
  | none =>
    let (significand, exponent) := t.parts
    (scale? significand exponent).map fun x => .float (signed t.negative x)

end NumberText

/-! ## Reading -/

namespace Cursor

def digits (c : Cursor) : List Char := c.rest.takeWhile Char.isDigit

/-- Reads the digits before the point. At the end of the text the cause is `atEnd`. -/
def readWhole (atEnd : Cause) (c : Cursor) : Except Fault (List Char) :=
  match c.rest with
  | [] => .error (c.here atEnd)
  | ch :: _ =>
    if ch = '0' then
      if (c.advance 1).digits = [] then .ok ['0']
      else .error ((c.advance 1).ahead .badNumber)
    else if ch.isDigit then .ok c.digits
    else .error (c.ahead .badNumber)

/-- Reads the digits after the point that the cursor stands behind. -/
def readFraction (atEnd : Cause) (c : Cursor) : Except Fault (List Char) :=
  match c.rest with
  | [] => .error (c.here atEnd)
  | _ => if c.digits = [] then .error (c.ahead .badNumber) else .ok c.digits

/-- Reads the sign and the digits of an exponent, and tells the number of characters. -/
def readExponent (atEnd : Cause) (c : Cursor) : Except Fault ((Bool × List Char) × Nat) :=
  let sign := match c.rest with
    | '+' :: _ => 1
    | '-' :: _ => 1
    | _ => 0
  let d := c.advance sign
  match d.rest with
  | [] => .error (d.here atEnd)
  | _ =>
    if d.digits = [] then .error (d.ahead .badNumber)
    else .ok ((c.rest.head? == some '-', d.digits), sign + d.digits.length)

/-- Reads the parts of a number. Where the text ends inside it, the cause is `atEnd`. -/
def readNumberText (atEnd : Cause) (c : Cursor) : Except Fault (NumberText × Nat) := do
  let negative := c.rest.head? == some '-'
  let sign := if negative then 1 else 0
  let whole ← readWhole atEnd (c.advance sign)
  let n := sign + whole.length
  let fraction ←
    if (c.advance n).rest.head? = some '.' then readFraction atEnd (c.advance (n + 1))
    else pure []
  let m := if fraction = [] then n else n + 1 + fraction.length
  let mark := (c.advance m).rest.head?
  if mark = some 'e' ∨ mark = some 'E' then
    let (exponent, k) ← readExponent atEnd (c.advance (m + 1))
    pure (⟨negative, whole, fraction, some exponent⟩, m + 1 + k)
  else
    pure (⟨negative, whole, fraction, none⟩, m)

/-- Reads a number. A number beyond the greatest finite one is refused behind its last digit,
or behind the digit of its exponent that there was no room for. -/
def readNumber (c : Cursor) : Except Fault (Number × Nat) := do
  let (t, n) ← c.readNumberText (.unfinished .value)
  match t.number? with
  | some number => pure (number, n)
  | none => throw ((c.advance (n - (t.power.2.length - 1))).here .numberOutOfRange)

def skipNumber (c : Cursor) : Except Fault Nat :=
  (c.readNumberText .badNumber).map Prod.snd

end Cursor

end Stencil.Json
