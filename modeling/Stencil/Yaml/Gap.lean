import Stencil.Yaml.Cursor

/-!
# Gaps between words

Between the words of a scalar that goes over several lines, line breaks are folded: a single
break counts as a space, and of several the first one is dropped. Blanks around the breaks do
not count. Blanks without a break are kept as they are.

## Main results

* `foldGap_of_no_break` — a gap without a break is kept.
-/

namespace Stencil.Yaml

/-- The line breaks in a text, in their normal form: separators of lines and paragraphs stay
what they are, every other break is a line feed. -/
def breaks : List Char → List Char
  | [] => []
  | '\r' :: '\n' :: rest => '\n' :: breaks rest
  | c :: rest =>
    if c = '\u2028' ∨ c = '\u2029' then c :: breaks rest
    else if isBreak c then '\n' :: breaks rest
    else breaks rest

/-- What line breaks count for when they are folded. -/
def foldBreaks : List Char → List Char
  | ['\n'] => [' ']
  | '\n' :: more => more
  | other => other

/-- What a gap between two words counts for. -/
def foldGap (gap : List Char) : List Char :=
  if gap.any isBreak then foldBreaks (breaks gap) else gap

/-- A gap without a break is kept. -/
theorem foldGap_of_no_break {gap : List Char} (h : gap.any isBreak = false) :
    foldGap gap = gap := by
  simp [foldGap, h]

end Stencil.Yaml
