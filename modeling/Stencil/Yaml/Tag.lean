import Stencil.Text.Hex
import Stencil.Yaml.Cursor

/-!
# Tags

A tag is a sequence of octets. In a text it is written in full between angle brackets, or as
a handle and a suffix, where the handle stands for a beginning that a directive gives. Octets
may be written as escapes of two hexadecimal digits; escapes have to form the leading and
trailing octets of UTF-8 characters.

A zero octet ends a tag, and what is written after it does not count.
-/

namespace Stencil.Yaml

/-- A tag as it is written. -/
structure TagName where
  /-- The handle; empty if the suffix is the whole tag. -/
  handle : List Char
  /-- The octets behind the handle. -/
  suffix : List Nat
  deriving DecidableEq

/-- Whether a character may stand in a tag. The comma and the square brackets may do so only
where `full` is set: in a tag written in full and in a directive. -/
def isTagChar (full : Bool) (c : Char) : Bool :=
  isNameChar c || ";/?:@&=+$.!~*'()".toList.contains c || (full && ",[]".toList.contains c)

/-- The number of octets after the leading octet of a character; none if it leads none. -/
def trailing? (octet : Nat) : Option Nat :=
  if octet < 0x80 then some 0
  else if 0xC0 ≤ octet ∧ octet < 0xE0 then some 1
  else if 0xE0 ≤ octet ∧ octet < 0xF0 then some 2
  else if 0xF0 ≤ octet ∧ octet < 0xF8 then some 3
  else none

/-- The octets ahead, of which the first `owed` have to be escapes of trailing octets, and
the number of characters they are written with. -/
def tagOctets (full : Bool) (owed : Nat) : List Char → Option (List Nat × Nat)
  | '%' :: a :: b :: rest =>
    match Text.hexValue? [a, b] with
    | none => none
    | some octet =>
      let after? :=
        if owed = 0 then trailing? octet
        else if 0x80 ≤ octet ∧ octet < 0xC0 then some (owed - 1)
        else none
      match after? with
      | none => none
      | some after => (tagOctets full after rest).map fun r => (octet :: r.1, r.2 + 3)
  | c :: rest =>
    if owed ≠ 0 ∨ c = '%' then none
    else if isTagChar full c then
      (tagOctets full 0 rest).map fun r => (c.toNat :: r.1, r.2 + 1)
    else some ([], 0)
  | [] => if owed = 0 then some ([], 0) else none

/-- Reads octets, and gives those before a zero octet and the place behind. -/
def readOctets (full : Bool) (c : Cursor) : Option (List Nat × Nat × Cursor) :=
  (tagOctets full 0 c.rest).map fun r => (r.1.takeWhile (· ≠ 0), r.2, c.advance r.2)

/-- The handle ahead, from its exclamation mark up to the one that ends it, or up to the end
of the name if there is none. -/
def handleAhead (c : Cursor) : List Char :=
  let name := (c.rest.drop 1).takeWhile isNameChar
  let ending := if (c.advance (name.length + 1)).sees '!' then ['!'] else []
  '!' :: (name ++ ending)

/-- Whether a handle is ended by an exclamation mark of its own. -/
def isEndedHandle (handle : List Char) : Bool :=
  decide (2 ≤ handle.length) && handle.getLast? == some '!'

/-- Reads a tag from its exclamation mark on. -/
def readTag (flow : Bool) (c : Cursor) : Option (TagName × Cursor) := do
  let (tag, after) ←
    if c.next.sees '<' then do
      let (octets, n, d) ← readOctets true (c.advance 2)
      if n = 0 ∨ !d.sees '>' then none else pure (⟨[], octets⟩, d.next)
    else do
      let handle := handleAhead c
      let (octets, n, d) ← readOctets false (c.advance handle.length)
      if isEndedHandle handle then
        if n = 0 then none else pure (⟨handle, octets⟩, d)
      else
        let suffix := handle.tail.map Char.toNat ++ octets
        pure (if suffix = [] then ⟨[], ['!'.toNat]⟩ else ⟨['!'], suffix⟩, d)
  if atSpacing after.rest ∨ (flow ∧ after.sees ',') then pure (tag, after) else none

/-! ## Directives -/

/-- A directive in front of a document. -/
inductive Directive
  /-- The version of the language. -/
  | version (major minor : Nat)
  /-- What a tag handle stands for. -/
  | tag (handle : List Char) (octets : List Nat)

/-- Reads a number of a version: up to nine digits. -/
def readVersionNumber (c : Cursor) : Option (Nat × Cursor) :=
  let digits := c.rest.takeWhile Char.isDigit
  if digits = [] ∨ 9 < digits.length then none
  else some (Nat.ofDigitChars 10 digits 0, c.advance digits.length)

/-- Reads what stands behind the name of a directive. -/
def readDirectiveValue (name : List Char) (c : Cursor) : Option (Directive × Cursor) := do
  let d := c.skipWhile isBlank
  if name = "YAML".toList then
    let (major, e) ← readVersionNumber d
    if !e.sees '.' then none
    else
      let (minor, f) ← readVersionNumber e.next
      pure (.version major minor, f)
  else if name = "TAG".toList then
    if !d.sees '!' then none
    else
      let handle := handleAhead d
      if handle ≠ ['!'] ∧ !isEndedHandle handle then none
      else
        let e := d.advance handle.length
        if !e.rest.head?.any isBlank then none
        else
          let (octets, n, f) ← readOctets true (e.skipWhile isBlank)
          if n = 0 ∨ !atSpacing f.rest then none else pure (.tag handle octets, f)
  else none

/-- Reads a directive from behind its percent sign up to the end of its line. -/
def readDirective (c : Cursor) : Option (Directive × Cursor) := do
  let name := c.rest.takeWhile isNameChar
  let d := c.advance name.length
  if name = [] ∨ !atSpacing d.rest then none
  else
    let (directive, e) ← readDirectiveValue name d
    let f ← e.endLine?
    pure (directive, f)

end Stencil.Yaml
