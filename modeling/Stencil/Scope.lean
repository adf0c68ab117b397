import Stencil.Frame

/-!
# Scopes

A scope is the stack of frames of the sections around a place in a template. Expanding a
section pushes a frame; leaving some sections gives an outer scope, which is empty once all
of them are left.

## Main results

* `outer_outer` — leaving sections in two goes leaves as many as the two together.
* `outer_of_depth_le` — one cannot leave more sections than there are.
-/

namespace Stencil

/-- The frames around a place in a template, the innermost one first. -/
structure Scope where
  /-- The frames, innermost first. -/
  frames : List Frame

namespace Scope

/-- The scope outside every section. -/
def empty : Scope := ⟨[]⟩

/-- The scope with the given frames, the outermost one first. -/
def ofFrames (frames : List Frame) : Scope := ⟨frames.reverse⟩

/-- The scope inside a section with the given frame. -/
def push (scope : Scope) (frame : Frame) : Scope := ⟨frame :: scope.frames⟩

def top? (scope : Scope) : Option Frame := scope.frames.head?

/-- The scope outside the `levels` innermost sections. -/
def outer (scope : Scope) (levels : Nat) : Scope := ⟨scope.frames.drop levels⟩

/-- The number of sections around the place. -/
def depth (scope : Scope) : Nat := scope.frames.length

/-- Leaving some sections, and then some more. -/
@[simp] theorem outer_outer (scope : Scope) (m n : Nat) :
    (scope.outer m).outer n = scope.outer (m + n) := by
  simp [outer]

/-- Outside all sections there is nothing left to leave. -/
theorem outer_of_depth_le {scope : Scope} {levels : Nat} (h : scope.depth ≤ levels) :
    scope.outer levels = empty := by
  simp [outer, empty, List.drop_eq_nil_of_le h]

end Scope

end Stencil
