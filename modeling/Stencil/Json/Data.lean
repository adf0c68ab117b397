import Stencil.Json.NumberText
import Stencil.Json.StringText

/-!
# Reading data

A JSON text gives a data value. Of several members of one name the last counts, and members
are kept sorted by name.

## Main results

* `entry_of_nextItem`, `entry_of_nextMember` — an entry that is not the first one stands
  behind at least one character, its comma. This is why the readers come to an end.
-/

namespace Stencil.Json.Cursor

/-- An item that is not the first of its list stands behind a comma. -/
theorem entry_of_nextItem {c : Cursor} {n : Nat} (h : nextItem false c = .ok (.entry n)) :
    0 < n ∧ 0 < c.rest.length := by
  have hle := length_skipBlanks_le c
  unfold nextItem at h
  dsimp only at h
  split at h
  · simp at h
  · simp at h
  · rename_i ch rest _ hrest
    rw [if_neg (by decide)] at h
    split at h
    · split at h
      · simp at h
      · simp at h
      · simp only [Except.ok.injEq, Next.entry.injEq] at h
        rw [hrest, List.length_cons] at hle
        omega
    · simp at h

/-- A member that is not the first of its object stands behind a comma. -/
theorem entry_of_nextMember {c : Cursor} {n : Nat}
    (h : nextMember false c = .ok (.entry n)) : 0 < n ∧ 0 < c.rest.length := by
  have hle := length_skipBlanks_le c
  unfold nextMember at h
  dsimp only at h
  split at h
  · simp at h
  · simp at h
  · rename_i ch rest _ hrest
    rw [if_neg (by decide)] at h
    split at h
    · split at h
      · simp at h
      · simp only [Except.ok.injEq, Next.entry.injEq] at h
        rw [hrest, List.length_cons] at hle
        omega
      · simp at h
      · simp at h
    · simp at h

/-- Reading a character behind the blanks leaves less to read. -/
private theorem length_drop_lt {c : Cursor} {ch : Char} {rest : List Char}
    (h : c.skipBlanks.rest = ch :: rest) {n : Nat} (hn : 0 < n) :
    (c.skipBlanks.advance n).rest.length < c.rest.length :=
  Nat.lt_of_lt_of_le (length_advance_lt h hn) (length_skipBlanks_le c)

/-- Reads a value without brackets, which starts with the character `ch` ahead, and tells how
many characters it has after that one. -/
def readScalar (ch : Char) (c : Cursor) : Except Fault (Value × Nat) :=
  if ch = '"' then
    (c.advance 1).readBody.map fun r => (.string (String.ofList r.1), r.2)
  else if ch = '-' ∨ ch.isDigit then c.readNumber.map fun r => (.number r.1, r.2 - 1)
  else
    match word? ch with
    | some word =>
      (readWord word (c.advance 1)).map fun n =>
        (if ch = 'n' then .null else .bool (ch = 't'), n)
    | none => .error (c.ahead .noValue)

mutual

def readValue (c : Cursor) : Except Fault (Value × Nat) :=
  match _ : c.skipBlanks.rest with
  | [] => .error (c.skipBlanks.here (.unfinished .value))
  | ch :: _ =>
    if ch = '[' then
      (readItems true (c.skipBlanks.advance 1)).map fun r =>
        (.array r.1, c.blanks + 1 + r.2)
    else if ch = '\x7b' then
      (readMembers true (c.skipBlanks.advance 1)).map fun r =>
        (.ofMembers r.1, c.blanks + 1 + r.2)
    else
      (readScalar ch c.skipBlanks).map fun r => (r.1, c.blanks + 1 + r.2)
termination_by 3 * c.rest.length
decreasing_by
  all_goals
    have h := length_drop_lt ‹_› (Nat.succ_pos 0)
    simp only [Nat.zero_add, Nat.succ_eq_add_one] at h
    simp only [if_true]
    omega

/-- Reads the items of a list, up to and including its closing bracket. -/
def readItems (first : Bool) (c : Cursor) : Except Fault (List Value × Nat) :=
  match _ : nextItem first c with
  | .error e => .error e
  | .ok (.closed n) => .ok ([], n)
  | .ok (.entry n) =>
    match readValue (c.advance n) with
    | .error e => .error e
    | .ok (v, m) =>
      (readItems false (c.advance (n + m))).map fun r => (v :: r.1, n + m + r.2)
termination_by 3 * c.rest.length + (if first then 2 else 1)
decreasing_by
  · simp only [rest_advance, List.length_drop]
    split <;> omega
  · simp only [rest_advance, List.length_drop, if_false]
    cases first with
    | true => simp only [if_true]; omega
    | false =>
      have := entry_of_nextItem ‹_›
      simp only [Bool.false_eq_true, if_false]
      omega

/-- Reads the members of an object, up to and including its closing bracket. -/
def readMembers (first : Bool) (c : Cursor) :
    Except Fault (List (String × Value) × Nat) :=
  match _ : nextMember first c with
  | .error e => .error e
  | .ok (.closed n) => .ok ([], n)
  | .ok (.entry n) =>
    match (c.advance n).readString with
    | .error e => .error e
    | .ok (name, m) =>
      match (c.advance (n + m)).readColon with
      | .error e => .error e
      | .ok colon =>
        match readValue (c.advance (n + m + colon)) with
        | .error e => .error e
        | .ok (v, l) =>
          (readMembers false (c.advance (n + m + colon + l))).map fun r =>
            ((name, v) :: r.1, n + m + colon + l + r.2)
termination_by 3 * c.rest.length + (if first then 2 else 1)
decreasing_by
  · simp only [rest_advance, List.length_drop]
    split <;> omega
  · simp only [rest_advance, List.length_drop, if_false]
    cases first with
    | true => simp only [if_true]; omega
    | false =>
      have := entry_of_nextMember ‹_›
      simp only [Bool.false_eq_true, if_false]
      omega

end

end Stencil.Json.Cursor

namespace Stencil

/-- The value that a JSON text stands for. -/
def Value.ofJson? (text : String) : Except Json.Fault Value :=
  let c := Json.Cursor.ofString text
  match c.readValue with
  | .error e => .error e
  | .ok (v, n) => (c.advance n).readEnd.map fun _ => v

end Stencil
