import Stencil.Yaml.Gap

/-!
# Block scalars

A block scalar starts behind its mark on the next line and goes on for as long as the lines
are indented. A literal one keeps its line breaks; a folded one joins lines with a space,
save those that start with a blank. What happens to the line breaks at the end is chosen
behind the mark: one is kept, or all of them, or none.
-/

namespace Stencil.Yaml

/-- How many of the line breaks at the end of a block scalar are kept. -/
inductive Chomping
  | strip
  | clip
  | keep
  deriving DecidableEq

/-- What stands behind the mark of a block scalar. -/
structure BlockHeader where
  /-- Which line breaks at the end are kept. -/
  chomping : Chomping
  /-- The indentation below that of the parent; zero if it is left to the first line. -/
  indentation : Nat
  length : Nat

/-- Which line breaks are kept, by the sign behind the mark. -/
def chomping? : Char → Option Chomping
  | '+' => some .keep
  | '-' => some .strip
  | _ => none

/-- The indentation that a digit behind the mark gives. -/
def indentation? (c : Char) : Option Nat :=
  if '0' ≤ c ∧ c ≤ '9' then some (c.toNat - '0'.toNat) else none

/-- Reads the header of a block scalar: a sign and a digit, in either order, and either of
them optional. The digit must not be zero. -/
def blockHeader? (cs : List Char) : Option BlockHeader :=
  let sign := cs.head?.bind chomping?
  let digit := cs.head?.bind indentation?
  let second := cs.tail.head?
  match sign, digit with
  | some chomping, _ =>
    match second.bind indentation? with
    | some 0 => none
    | some n => some ⟨chomping, n, 2⟩
    | none => some ⟨chomping, 0, 1⟩
  | none, some 0 => none
  | none, some n =>
    match second.bind chomping? with
    | some chomping => some ⟨chomping, n, 2⟩
    | none => some ⟨.clip, n, 1⟩
  | none, none => some ⟨.clip, 0, 0⟩

/-- Reads the spaces and empty lines in front of the next line of a block scalar that is
indented by `indent`, or that decides on the indentation if `indent` is zero. Gives the line
breaks, the greatest column reached, and the place behind. A tab must not stand where the
indentation is looked for. -/
def readIndentation (indent greatest : Nat) (c : Cursor) :
    Option (List Char × Nat × Cursor) :=
  let spaces := (c.rest.takeWhile (· == ' ')).length
  let d := c.advance (if indent = 0 then spaces else min spaces (indent - c.column))
  let reached := max greatest d.column
  if (indent = 0 ∨ d.column < indent) ∧ d.sees '\t' then none
  else if d.breakLength = 0 then some ([], reached, d)
  else
    let e := d.advance d.breakLength
    if _ : e.rest.length < c.rest.length then
      (readIndentation indent reached e).map fun r =>
        (breaks (d.rest.take d.breakLength) ++ r.1, r.2)
    else none
termination_by c.rest.length
decreasing_by assumption

/-- What the break in front of a line of a block scalar and the empty lines after it count
for. `plain` tells whether the lines on both sides start without a blank. -/
def joinLines (literal plain : Bool) (lineBreak emptyLines : List Char) : List Char :=
  if !literal && lineBreak == ['\n'] && plain then
    if emptyLines = [] then [' '] else emptyLines
  else lineBreak ++ emptyLines

/-- The lines of a block scalar as they are read. -/
structure BlockLines where
  /-- The text up to the last line, without its break. -/
  text : List Char
  /-- The break behind the last line. -/
  lineBreak : List Char
  /-- The breaks of the empty lines after it. -/
  emptyLines : List Char
  after : Cursor

/-- Reads the lines of a block scalar that is indented by `indent`. The break in front of the
next line, the empty lines after that break, and whether the line before it starts with a
blank are given. -/
def readLines (literal : Bool) (indent : Nat) (lineBreak emptyLines : List Char)
    (blank : Bool) (c : Cursor) : Option BlockLines :=
  if c.column ≠ indent ∨ c.rest = [] then some ⟨[], lineBreak, emptyLines, c⟩
  else
    let startsBlank := c.rest.head?.any isBlank
    let joint := joinLines literal (!blank && !startsBlank) lineBreak emptyLines
    let line := c.rest.takeWhile (fun ch => !isBreak ch)
    let d := c.advance line.length
    let e := d.advance d.breakLength
    match readIndentation indent 0 e with
    | none => none
    | some (empty, _, f) =>
      if _ : f.rest.length < c.rest.length then
        (readLines literal indent (breaks (d.rest.take d.breakLength)) empty startsBlank
          f).map fun r => ⟨joint ++ line ++ r.text, r.lineBreak, r.emptyLines, r.after⟩
      else none
termination_by c.rest.length
decreasing_by assumption

/-- Reads a block scalar from behind its mark on, below a parent that is indented by
`parent`. -/
def readBlock (literal : Bool) (parent : Int) (c : Cursor) : Option (List Char × Cursor) := do
  let header ← blockHeader? c.rest
  let start ← (c.advance header.length).endLine?
  let given := if header.indentation = 0 then 0 else parent.toNat + header.indentation
  let (empty, reached, first) ← readIndentation given 0 start
  let indent := if given = 0 then max reached (max (parent + 1).toNat 1) else given
  let lines ← readLines literal indent [] empty false first
  let tail := match header.chomping with
    | .strip => []
    | .clip => lines.lineBreak
    | .keep => lines.lineBreak ++ lines.emptyLines
  pure (lines.text ++ tail, lines.after)

end Stencil.Yaml
