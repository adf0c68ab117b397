import Stencil.Json.NumberText
import Stencil.Json.StringText

/-!
# Reading over values

A value that nobody asked for is read over: it has to be well formed, but nothing is made of
it. Brackets may be nested to any depth, so the brackets that are still open are kept in a
list and not in the calls of the reader.
-/

namespace Stencil.Json

/-- The kind of an open bracket. -/
inductive Bracket
  | list
  | object
  deriving DecidableEq

namespace Bracket

/-- The character that closes a bracket. -/
def closing : Bracket → Char
  | .list => ']'
  | .object => '\x7d'

/-- What is unfinished if the text ends inside a bracket. -/
def unfinished : Bracket → Cause
  | .list => .unfinished .list
  | .object => .unfinished .object

/-- What is wrong if an entry is followed by neither a comma nor the closing bracket. -/
def noSeparator : Bracket → Cause
  | .list => .noListSeparator
  | .object => .noObjectSeparator

end Bracket

/-- What is read over next. -/
inductive Pending
  | value
  | entry
  /-- The first entry of the innermost open bracket, or its end. -/
  | first
  /-- What follows a value. -/
  | next

/-- Reading one of these leads to another of lower rank, unless it reads a character. -/
def Pending.rank : Pending → Nat
  | .next => 0
  | .value => 0
  | .entry => 1
  | .first => 2

namespace Cursor

/-- Reads over a value without brackets, which starts with the character `ch` ahead, and
tells how many characters it has after that one. -/
def skipScalar (ch : Char) (c : Cursor) : Except Fault Nat :=
  if ch = '"' then (c.advance 1).skipBody
  else if ch = '-' ∨ ch.isDigit then c.skipNumber.map (· - 1)
  else
    match word? ch with
    | some word => readWord word (c.advance 1)
    | none => .error (c.ahead .noValue)

/-- Reads over the name of a member, from the character behind its opening quote on, and the
colon after it. -/
def skipName (c : Cursor) : Except Fault Nat :=
  match c.skipBody with
  | .error e => .error e
  | .ok n => (c.advance n).readColon.map (n + ·)

/-- Reading a character behind the blanks leaves less to read, whatever is pending before
and after. -/
private theorem rank_advance_lt {c : Cursor} {ch : Char} {rest : List Char}
    (h : c.skipBlanks.rest = ch :: rest) {n : Nat} (hn : 0 < n) (p q : Pending) :
    3 * (c.skipBlanks.advance n).rest.length + p.rank < 3 * c.rest.length + q.rank := by
  have hle := length_skipBlanks_le c
  have hlt := Cursor.length_advance_lt h hn
  have hp : p.rank ≤ 2 := by cases p <;> decide
  omega

/-- Reads over what is pending inside the given open brackets, and then over all that is
still missing until they are closed; tells the number of characters. -/
def skip (pending : Pending) (opened : List Bracket) (c : Cursor) : Except Fault Nat :=
  let d := c.skipBlanks
  match pending, opened, _ : d.rest with
  | .next, [], _ => .ok 0
  | .value, _, [] => .error (d.here (.unfinished .value))
  | .value, opened, ch :: _ =>
    if ch = '[' then
      (skip .first (.list :: opened) (d.advance 1)).map (c.blanks + 1 + ·)
    else if ch = '\x7b' then
      (skip .first (.object :: opened) (d.advance 1)).map (c.blanks + 1 + ·)
    else
      match d.skipScalar ch with
      | .error e => .error e
      | .ok n => (skip .next opened (d.advance (n + 1))).map (c.blanks + (n + 1) + ·)
  | .entry, [], _ => .ok 0
  | .entry, .list :: outer, _ => skip .value (.list :: outer) c
  | .entry, .object :: _, [] => .error (d.here (.unfinished .object))
  | .entry, .object :: outer, ch :: _ =>
    if ch = '"' then
      match (d.advance 1).skipName with
      | .error e => .error e
      | .ok n =>
        (skip .value (.object :: outer) (d.advance (n + 1))).map (c.blanks + (n + 1) + ·)
    else .error (d.ahead .keyNotString)
  | .first, [], _ => .ok 0
  | .first, bracket :: _, [] => .error (d.here bracket.unfinished)
  | .first, bracket :: outer, ch :: _ =>
    if ch = bracket.closing then
      (skip .next outer (d.advance 1)).map (c.blanks + 1 + ·)
    else skip .entry (bracket :: outer) c
  | .next, bracket :: _, [] => .error (d.here bracket.unfinished)
  | .next, bracket :: outer, ch :: _ =>
    if ch = ',' then
      (skip .entry (bracket :: outer) (d.advance 1)).map (c.blanks + 1 + ·)
    else if ch = bracket.closing then
      (skip .next outer (d.advance 1)).map (c.blanks + 1 + ·)
    else .error (d.ahead bracket.noSeparator)
termination_by 3 * c.rest.length + pending.rank
decreasing_by
  all_goals try exact rank_advance_lt ‹_› (Nat.succ_pos _) _ _
  all_goals exact Nat.add_lt_add_left (by decide) _

def skipValue (c : Cursor) : Except Fault Nat := skip .value [] c

end Cursor

end Stencil.Json
