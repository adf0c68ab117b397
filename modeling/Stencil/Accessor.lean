import Stencil.Scope
import Stencil.Segment

/-!
# Accessors

An accessor says how to get a value out of the frames around a place, without naming any
frame. It starts from a root, which reads the innermost frame, and goes on by path segments,
by functions on values, and by moving outwards. Accessors are built once and evaluated
wherever their slot is shown.

A segment that finds nothing gives null, and so does a root outside every section.

## Main results

* `evaluate_empty` — outside every section an accessor sees the detached frame.
* `evaluate_path` — a dotted path, as an equation.
-/

namespace Stencil

/-- A way to get a value out of the frames around a place. -/
inductive Accessor
  | element
  | index
  | source
  | frame (f : Frame → Value)
  /-- What a segment finds in the value of another accessor. -/
  | get (inner : Accessor) (segment : Segment)
  | map (inner : Accessor) (f : Value → Value)
  /-- Another accessor, evaluated outside the `levels` innermost sections. -/
  | outside (levels : Nat) (inner : Accessor)

namespace Accessor

instance : Inhabited Accessor := ⟨.element⟩

/-! ## Building -/

/-- The element of the innermost frame: the usual accessor to start from. -/
def item : Accessor := .element

def field (a : Accessor) (name : String) : Accessor := a.get (.key name)

def nth (a : Accessor) (position : Nat) : Accessor := a.get (.index position)

/-- The members named by a dotted path, each inside the one before. -/
def path (a : Accessor) (text : String) : Accessor := (Segment.keys text).foldl field a

/-- The accessor evaluated `levels` sections further out. -/
def up (a : Accessor) (levels : Nat) : Accessor :=
  if levels = 0 then a else .outside levels a

def parent (a : Accessor) : Accessor := a.up 1

/-! ## Evaluating -/

/-- The value of an accessor at a place with the given frames around it. -/
def evaluate : Accessor → Scope → Value
  | .element, scope => Value.ofOption (scope.top?.map Frame.element)
  | .index, scope => Value.ofOption ((scope.top?.bind Frame.index).map Value.ofNat)
  | .source, scope => Value.ofOption (scope.top?.bind Frame.sourceValue)
  | .frame f, scope => f (scope.top?.getD Frame.detached)
  | .get inner segment, scope => Value.ofOption (segment.lookup (inner.evaluate scope))
  | .map inner f, scope => f (inner.evaluate scope)
  | .outside levels inner, scope => inner.evaluate (scope.outer levels)

/-- The value of an accessor directly inside one section. -/
def call (a : Accessor) (frame : Frame) : Value := a.evaluate (Scope.ofFrames [frame])

/-- The text of an accessor: its root, then its segments, with functions left unnamed and
the moves outwards in front. -/
def describe : Accessor → String
  | .element => "item"
  | .index => "index"
  | .source => "source"
  | .frame _ => "fn"
  | .get inner segment => inner.describe ++ segment.text
  | .map inner _ => inner.describe ++ "(fn)"
  | .outside levels inner => "up(" ++ Numeral.ofNat levels ++ ")." ++ inner.describe

/-- A dotted path looks its keys up one after the other. -/
theorem evaluate_path (a : Accessor) (text : String) (scope : Scope) :
    (a.path text).evaluate scope =
      (Segment.keys text).foldl
        (fun v name => Value.ofOption (Segment.lookup (.key name) v)) (a.evaluate scope) := by
  unfold path
  induction Segment.keys text generalizing a with
  | nil => rfl
  | cons name rest ih => exact ih (a.field name)

/-- Outside every section an accessor sees the detached frame. -/
theorem evaluate_empty (a : Accessor) : a.evaluate Scope.empty = a.call Frame.detached := by
  have key : ∀ (a : Accessor) (n : Nat),
      a.evaluate Scope.empty = a.evaluate ((Scope.ofFrames [Frame.detached]).outer n) := by
    intro a
    induction a with
    | outside levels inner ih =>
      intro n
      simp only [evaluate, Scope.outer_outer]
      rw [← ih (n + levels), Scope.outer_of_depth_le (Nat.zero_le levels)]
    | get inner segment ih => intro n; simp only [evaluate]; rw [ih n]
    | map inner f ih => intro n; simp only [evaluate]; rw [ih n]
    | _ =>
      intro n
      cases n with
      | zero => rfl
      | succ n => simp [evaluate, Scope.outer, Scope.ofFrames, Scope.empty, Scope.top?]
  exact key a 0

end Accessor

end Stencil
