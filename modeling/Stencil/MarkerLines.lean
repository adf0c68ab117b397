import Stencil.Slot

/-!
# Marker lines

A section marker that stands alone on its line leaves an empty line behind, as it shows
nothing itself. Collapsing marker lines drops the newline after such a marker, so the output
reads as if the line had never been there.

A marker stands alone on its line if the text before it ends with a newline and the text
after it starts with one. The first slot of a template also stands alone if the text before
it is empty; if that text is a single newline, it is dropped as well. What counts is always
the text as it was written, so markers that follow each other do not influence each other.

## Main results

* `length_collapse` — collapsing keeps the number of fragments.
-/

namespace Stencil.MarkerLines

/-- Whether the first slot of a template starts its line when `left` stands before it. -/
def isLeading (i : Nat) (left : String) : Bool := i == 0 && (left == "" || left == "\n")

/-- Whether the slot at `i` starts its line when `left` stands before it. -/
def startsLine (i : Nat) (left : String) : Bool :=
  isLeading i left || left.toList.getLast? == some '\n'

/-- Text without the newline that starts it, if one does. -/
def withoutNewline? (text : String) : Option String :=
  match text.toList with
  | '\n' :: rest => some (String.ofList rest)
  | _ => none

/-- Drops the newline after the marker at `i` from `out` if the marker stands alone on its
line in `fragments`. -/
def collapseAt (fragments : List String) (i : Nat) (out : List String) : List String :=
  match fragments[i]?, fragments[i + 1]?.bind withoutNewline? with
  | some left, some rest =>
    if startsLine i left then
      let out := out.set (i + 1) rest
      if isLeading i left && left == "\n" then out.set 0 "" else out
    else
      out
  | _, _ => out

/-- Drops the newlines after the markers among `slots`, the first of which is the slot at
`i`. -/
def collapseFrom (fragments : List String) (i : Nat) (out : List String) :
    List Slot → List String
  | [] => out
  | slot :: rest =>
    collapseFrom fragments (i + 1)
      (if slot.kind.isMarker then collapseAt fragments i out else out) rest

/-- The fragments without the newlines that follow a section marker on a line of its own. -/
def collapse (fragments : List String) (slots : List Slot) : List String :=
  collapseFrom fragments 0 fragments slots

/-- Dropping one newline keeps the number of fragments. -/
theorem length_collapseAt (fragments : List String) (i : Nat) (out : List String) :
    (collapseAt fragments i out).length = out.length := by
  unfold collapseAt
  split
  · split
    · dsimp only
      split <;> simp
    · rfl
  · rfl

theorem length_collapse (fragments : List String) (slots : List Slot) :
    (collapse fragments slots).length = fragments.length := by
  have key : ∀ (slots : List Slot) (i : Nat) (out : List String),
      (collapseFrom fragments i out slots).length = out.length := by
    intro slots
    induction slots with
    | nil => intro i out; rfl
    | cons slot rest ih =>
      intro i out
      rw [collapseFrom, ih]
      split
      · exact length_collapseAt fragments i out
      · rfl
  exact key slots 0 fragments

end Stencil.MarkerLines
