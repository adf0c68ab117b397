import Stencil.Yaml.Gap

/-!
# Plain scalars

A plain scalar is text without quotes. It ends before a colon with spacing behind it, before
a comment, and before a document marker; inside flow brackets also before a comma and before
a bracket. It may go over several lines as long as they are indented.
-/

namespace Stencil.Yaml

/-- Whether a character ends a plain scalar inside flow brackets. -/
def isFlowMark (c : Char) : Bool :=
  c == ',' || c == '[' || c == ']' || c == '\x7b' || c == '\x7d'

/-- The characters of a plain scalar up to the next spacing or the end of the scalar. Inside
flow brackets a colon must not be followed by a comma, a bracket or a question mark. -/
def plainWord (flow : Bool) : List Char → Option (List Char)
  | [] => some []
  | c :: rest =>
    if isSpacing c then some []
    else if flow ∧ c = ':' ∧ rest.head?.any (fun d => isFlowMark d || d == '?') then none
    else if (c = ':' ∧ atSpacing rest) ∨ (flow ∧ isFlowMark c) then some []
    else (plainWord flow rest).map (c :: ·)

/-- Whether a gap that starts behind a word holds a tab where a line has to be indented by
`indent` columns. The gap is at `column` of its line; `broken` tells whether a line break has
been passed. -/
def tabInIndentation (indent : Int) (column : Nat) (broken : Bool) : List Char → Bool
  | [] => false
  | c :: rest =>
    if isBreak c then tabInIndentation indent 0 true rest
    else (broken && c == '\t' && (column : Int) < indent) ||
      tabInIndentation indent (column + 1) broken rest

/-- What a plain scalar has been read as. -/
structure PlainText where
  text : List Char
  /-- Whether the last gap, behind the scalar, holds a line break. -/
  broken : Bool
  /-- The place behind the scalar and the gap after it. -/
  after : Cursor

/-- Reads on in a plain scalar whose lines have to be indented by `indent` columns. `gap` is
what the last gap counts for if another word follows; `broken` tells whether it holds a line
break. -/
def readPlain (flow : Bool) (indent : Int) (gap : List Char) (broken : Bool) (c : Cursor) :
    Option PlainText :=
  if c.atMarker || c.sees '#' then some ⟨[], broken, c⟩
  else
    match plainWord flow c.rest with
    | none => none
    | some [] => some ⟨[], broken, c⟩
    | some (first :: word) =>
      let d := c.advance (word.length + 1)
      let spacing := d.rest.takeWhile isSpacing
      let e := d.advance spacing.length
      let lines := spacing.any isBreak
      let text := gap ++ first :: word
      if tabInIndentation indent d.column false spacing then none
      else if spacing = [] ∨ (!flow ∧ (e.column : Int) < indent) then some ⟨text, lines, e⟩
      else if _ : e.rest.length < c.rest.length then
        (readPlain flow indent (foldGap spacing) lines e).map fun r =>
          ⟨text ++ r.text, r.broken, r.after⟩
      else none
termination_by c.rest.length
decreasing_by assumption

end Stencil.Yaml
