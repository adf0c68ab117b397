/-!
# Faults in JSON texts

A fault is a cause and a position. The position is a line, counted from one, and a column:
the number of UTF-8 bytes between the start of the line and the place where reading stopped.

## Main results

* `advance_append` — walking over two pieces of text one after the other is walking over
  the whole.
-/

namespace Stencil.Json

/-- A place in a text. -/
structure Position where
  /-- The line, counted from one. -/
  line : Nat
  /-- The number of bytes since the start of the line. -/
  column : Nat
  deriving DecidableEq

namespace Position

def start : Position := ⟨1, 0⟩

def after (p : Position) (c : Char) : Position :=
  if c = '\n' then ⟨p.line + 1, 0⟩ else ⟨p.line, p.column + c.utf8Size⟩

/-- The place after the first byte of a character. -/
def afterByte (p : Position) (c : Char) : Position :=
  if c = '\n' then ⟨p.line + 1, 0⟩ else ⟨p.line, p.column + 1⟩

/-- The place after a piece of text. -/
def advance (p : Position) (cs : List Char) : Position := cs.foldl after p

/-- The place `n` bytes into a piece of text, which may be inside a character. -/
def advanceBytes (p : Position) : Nat → List Char → Position
  | 0, _ => p
  | _, [] => p
  | n + 1, c :: rest =>
    if c.utf8Size ≤ n + 1 then advanceBytes (p.after c) (n + 1 - c.utf8Size) rest
    else ⟨p.line, p.column + (n + 1)⟩

/-- Walking over two pieces of text in turn. -/
theorem advance_append (p : Position) (cs ds : List Char) :
    p.advance (cs ++ ds) = (p.advance cs).advance ds := by
  simp [advance]

end Position

/-- What was being read where the text ended. -/
inductive Unfinished
  | value
  | string
  | list
  | object
  deriving DecidableEq

/-- What was found in place of what was expected. -/
inductive Found
  | null
  | bool (b : Bool)
  | integer (n : Int)
  | float (text : String)
  | string (s : String)
  | list
  | object

/-- Why a text is refused. -/
inductive Cause
  /-- The text ends too early. -/
  | unfinished (what : Unfinished)
  /-- A member's name is not followed by a colon. -/
  | noColon
  /-- An item is followed by neither a comma nor the end of the list. -/
  | noListSeparator
  /-- A member is followed by neither a comma nor the end of the object. -/
  | noObjectSeparator
  /-- A word that starts like `null`, `true` or `false` goes on differently. -/
  | unknownWord
  | noValue
  /-- An escape that means nothing. -/
  | badEscape
  | badNumber
  /-- A number beyond the greatest finite one. -/
  | numberOutOfRange
  /-- A bare control character in a string. -/
  | controlCharacter
  | keyNotString
  /-- A surrogate code without its partner. -/
  | loneSurrogate
  /-- A leading surrogate code with no escape after it. -/
  | unpairedEscape
  | trailingComma
  | trailingText
  /-- A value of another kind than the expected one. -/
  | wrongKind (found : Found) (expected : String)
  /-- A member that may stand only once stands twice. -/
  | repeatedMember (name : String)

/-- Why and where a text is refused. -/
structure Fault where
  cause : Cause
  position : Position

end Stencil.Json
