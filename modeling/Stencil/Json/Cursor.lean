import Stencil.Json.Fault

/-!
# Cursors in JSON texts

A cursor stands somewhere in a text: it knows the characters ahead and its own position. All
readers of parts of a text take a cursor and tell how many characters they have read, so the
cursor behind a part is the one in front of it, advanced by that number.

## Main results

* `rest_advance`, `advance_advance` — advancing drops characters, and advancing in two goes
  is advancing by the sum.
-/

namespace Stencil.Json

/-- A place in a text, with the characters from there on. -/
structure Cursor where
  rest : List Char
  position : Position

namespace Cursor

def ofString (text : String) : Cursor := ⟨text.toList, Position.start⟩

def advance (c : Cursor) (n : Nat) : Cursor :=
  ⟨c.rest.drop n, c.position.advance (c.rest.take n)⟩

/-- The fault with the given cause at the cursor. -/
def here (c : Cursor) (cause : Cause) : Fault := ⟨cause, c.position⟩

/-- The fault with the given cause at the character ahead: it is placed behind the first byte
of that character, or at the end of the text. -/
def ahead (c : Cursor) (cause : Cause) : Fault :=
  match c.rest with
  | [] => ⟨cause, c.position⟩
  | ch :: _ => ⟨cause, c.position.afterByte ch⟩

/-- Whether a character is blank: a space, a tab, a line feed or a carriage return. -/
def isBlank (ch : Char) : Bool := ch == ' ' || ch == '\t' || ch == '\n' || ch == '\r'

def blanks (c : Cursor) : Nat := (c.rest.takeWhile isBlank).length

def skipBlanks (c : Cursor) : Cursor := c.advance c.blanks

@[simp] theorem rest_advance (c : Cursor) (n : Nat) : (c.advance n).rest = c.rest.drop n :=
  rfl

theorem advance_advance (c : Cursor) (m n : Nat) :
    (c.advance m).advance n = c.advance (m + n) := by
  have h : c.rest.take (m + n) = c.rest.take m ++ (c.rest.drop m).take n := List.take_add
  simp [advance, h, Position.advance_append]

/-- Reading a character leaves less to read. -/
theorem length_advance_lt {c : Cursor} {ch : Char} {rest : List Char} (h : c.rest = ch :: rest)
    {n : Nat} (hn : 0 < n) : (c.advance n).rest.length < c.rest.length := by
  rw [rest_advance, List.length_drop, h, List.length_cons]
  omega

/-- Skipping blanks skips no more than there is. -/
theorem length_skipBlanks_le (c : Cursor) : c.skipBlanks.rest.length ≤ c.rest.length := by
  simp [skipBlanks]

/-! ## Words and separators -/

/-- Reads the given characters, which are what a word goes on with once its first letter has
been read. -/
def readWord : List Char → Cursor → Except Fault Nat
  | [], _ => .ok 0
  | w :: word, c =>
    match c.rest with
    | [] => .error (c.here (.unfinished .value))
    | ch :: _ =>
      if ch = w then (readWord word (c.advance 1)).map (1 + ·)
      else .error (c.ahead .unknownWord)

/-- What a word goes on with after its first letter. -/
def word? : Char → Option (List Char)
  | 'n' => some ['u', 'l', 'l']
  | 't' => some ['r', 'u', 'e']
  | 'f' => some ['a', 'l', 's', 'e']
  | _ => none

/-- What comes next inside brackets. -/
inductive Next
  /-- Another entry starts after `n` characters. -/
  | entry (n : Nat)
  /-- The bracket is closed by the last of `n` characters. -/
  | closed (n : Nat)

/-- What comes next in a list, of which nothing has been read yet if `first` is set. -/
def nextItem (first : Bool) (c : Cursor) : Except Fault Next :=
  let d := c.skipBlanks
  match d.rest with
  | [] => .error (d.here (.unfinished .list))
  | ']' :: _ => .ok (.closed (c.blanks + 1))
  | ch :: _ =>
    if first then .ok (.entry c.blanks)
    else if ch = ',' then
      let e := (d.advance 1).skipBlanks
      match e.rest with
      | [] => .error (e.here (.unfinished .value))
      | ']' :: _ => .error (e.ahead .trailingComma)
      | _ => .ok (.entry (c.blanks + 1 + (d.advance 1).blanks))
    else .error (d.ahead .noListSeparator)

/-- What comes next in an object, of which nothing has been read yet if `first` is set. An
entry starts with the quote that opens its name. -/
def nextMember (first : Bool) (c : Cursor) : Except Fault Next :=
  let d := c.skipBlanks
  match d.rest with
  | [] => .error (d.here (.unfinished .object))
  | '\x7d' :: _ => .ok (.closed (c.blanks + 1))
  | ch :: _ =>
    if first then
      if ch = '"' then .ok (.entry c.blanks) else .error (d.ahead .keyNotString)
    else if ch = ',' then
      let e := (d.advance 1).skipBlanks
      match e.rest with
      | [] => .error (e.here (.unfinished .value))
      | '"' :: _ => .ok (.entry (c.blanks + 1 + (d.advance 1).blanks))
      | '\x7d' :: _ => .error (e.ahead .trailingComma)
      | _ => .error (e.ahead .keyNotString)
    else .error (d.ahead .noObjectSeparator)

def readColon (c : Cursor) : Except Fault Nat :=
  let d := c.skipBlanks
  match d.rest with
  | [] => .error (d.here (.unfinished .object))
  | ':' :: _ => .ok (c.blanks + 1)
  | _ => .error (d.ahead .noColon)

/-- Refuses everything but blanks up to the end of the text. -/
def readEnd (c : Cursor) : Except Fault Unit :=
  match c.skipBlanks.rest with
  | [] => .ok ()
  | _ => .error (c.skipBlanks.ahead .trailingText)

end Cursor

end Stencil.Json
