/-!
# Cursors in YAML texts

A cursor stands somewhere in a text: it knows the characters ahead, how many octets it has
passed, and its line and column. Lines end with a line feed, a carriage return or both, and
also with the next-line character and the line and paragraph separators of Unicode.
-/

namespace Stencil.Yaml

/-! ## Characters -/

/-- Whether a character may stand in a text at all. -/
def isAllowed (c : Char) : Bool :=
  c == '\t' || c == '\n' || c == '\r' || (' ' ≤ c && c ≤ '~') || c == '\u0085' ||
    ('\u00a0' ≤ c && c ≤ '\ufffd') || 0x10000 ≤ c.toNat

/-- Whether a character ends a line. -/
def isBreak (c : Char) : Bool :=
  c == '\n' || c == '\r' || c == '\u0085' || c == '\u2028' || c == '\u2029'

/-- Whether a character is a space or a tab. -/
def isBlank (c : Char) : Bool := c == ' ' || c == '\t'

/-- Whether a character is a space, a tab, or ends a line. -/
def isSpacing (c : Char) : Bool := isBlank c || isBreak c

/-- Whether a character may stand in the name of an anchor, a tag handle or a directive. -/
def isNameChar (c : Char) : Bool :=
  ('0' ≤ c && c ≤ '9') || ('a' ≤ c && c ≤ 'z') || ('A' ≤ c && c ≤ 'Z') || c == '_' || c == '-'

/-- Whether the text ends or goes on with spacing. -/
def atSpacing : List Char → Bool
  | [] => true
  | c :: _ => isSpacing c

/-! ## Places -/

/-- A place in a text, with the characters from there on. -/
structure Cursor where
  rest : List Char
  /-- The number of octets passed, with the text in UTF-8. -/
  offset : Nat
  /-- The number of line breaks passed. -/
  line : Nat
  /-- The number of characters passed on the line. -/
  column : Nat

namespace Cursor

def ofList (text : List Char) : Cursor := ⟨text, 0, 0, 0⟩

/-- The cursor one character further on. -/
def next (c : Cursor) : Cursor :=
  match c.rest with
  | [] => c
  | ch :: rest =>
    if isBreak ch then ⟨rest, c.offset + ch.utf8Size, c.line + 1, 0⟩
    else ⟨rest, c.offset + ch.utf8Size, c.line, c.column + 1⟩

def advance (c : Cursor) : Nat → Cursor
  | 0 => c
  | n + 1 => c.next.advance n

/-- The cursor behind the characters ahead that satisfy `p`. -/
def skipWhile (c : Cursor) (p : Char → Bool) : Cursor :=
  c.advance (c.rest.takeWhile p).length

/-- Whether the character ahead is `ch`. -/
def sees (c : Cursor) (ch : Char) : Bool := c.rest.head? == some ch

/-- Whether a document marker stands here: three hyphens or three points at the start of a
line, followed by spacing. -/
def atMarker (c : Cursor) : Bool :=
  c.column == 0 &&
    match c.rest with
    | '-' :: '-' :: '-' :: rest => atSpacing rest
    | '.' :: '.' :: '.' :: rest => atSpacing rest
    | _ => false

/-- The number of characters of the line break ahead; none if there is no line break. -/
def breakLength (c : Cursor) : Nat :=
  match c.rest with
  | '\r' :: '\n' :: _ => 2
  | ch :: _ => if isBreak ch then 1 else 0
  | [] => 0

/-- The cursor behind the comment ahead, if there is one. -/
def skipComment (c : Cursor) : Cursor :=
  if c.sees '#' then c.skipWhile (fun ch => !isBreak ch) else c

/-- The cursor behind the rest of a line that may hold nothing but blanks and a comment; no
cursor if it holds more. -/
def endLine? (c : Cursor) : Option Cursor :=
  let d := (c.skipWhile isBlank).skipComment
  match d.rest with
  | [] => some d
  | ch :: _ => if isBreak ch then some (d.advance d.breakLength) else none

end Cursor

end Stencil.Yaml
