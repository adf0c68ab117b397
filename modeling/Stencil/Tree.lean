import Stencil.Slot
import Stencil.Value.Text

/-!
# Templates as trees

A template whose sections pair up is a tree: literal text alternates with nodes, and a node
shows a value, shows what an accessor finds, or is a section with a driver and a tree of its
own as its body. A tree is written out as fragments and slots, a section as its start, its
body and its end.

The text of a tree is given by recursion on the tree. It says what rendering means without
any positions: nothing is looked up, and no section has to be found.

## Main results

* `length_fragments` — what a tree is written out as is a template.
* `render_append` — the text of two trees joined at their ends is one text after the other.
-/

namespace Stencil

/-- Literal text and nodes in turn, starting and ending with text. -/
inductive Tree
  /-- Nothing but text. -/
  | text (before : String)
  /-- Text, a value to show, and the rest. -/
  | direct (before : String) (value : Value) (rest : Tree)
  /-- Text, an accessor whose value is shown, and the rest. -/
  | accessor (before : String) (a : Accessor) (rest : Tree)
  /-- Text, a section with its driver and its body, and the rest. -/
  | block (before : String) (driver : Driver) (body rest : Tree)

namespace Tree

/-! ## Writing out -/

/-- The literal text of a tree, written out. -/
def fragments : Tree → List String
  | .text before => [before]
  | .direct before _ rest => before :: rest.fragments
  | .accessor before _ rest => before :: rest.fragments
  | .block before _ body rest => before :: (body.fragments ++ rest.fragments)

/-- The slots of a tree, written out. -/
def slots : Tree → List Slot
  | .text _ => []
  | .direct _ value rest => .direct value :: rest.slots
  | .accessor _ a rest => .accessor a :: rest.slots
  | .block _ driver body rest => .opening driver :: (body.slots ++ .closing :: rest.slots)

/-- A tree has one fragment more than it has slots. -/
theorem length_fragments (tree : Tree) : tree.fragments.length = tree.slots.length + 1 := by
  induction tree with
  | text before => rfl
  | direct before value rest ih => simp [fragments, slots, ih]
  | accessor before a rest ih => simp [fragments, slots, ih]
  | block before driver body rest ihBody ihRest =>
    simp [fragments, slots, ihBody, ihRest]
    omega

/-! ## Text -/

/-- The text of a tree inside sections with the given frames. -/
def render (placeholder : String) : Tree → Scope → String
  | .text before, _ => before
  | .direct before value rest, scope =>
    before ++ value.display placeholder ++ rest.render placeholder scope
  | .accessor before a rest, scope =>
    before ++ (a.evaluate scope).display placeholder ++ rest.render placeholder scope
  | .block before driver body rest, scope =>
    let shown := match driver.evaluate scope with
      | .array items =>
        String.join ((List.range items.length).map fun k =>
          body.render placeholder (scope.push (.looped (.array items) k)))
      | value =>
        if value.isTruthy then body.render placeholder (scope.push (.conditional value))
        else ""
    before ++ shown ++ rest.render placeholder scope

/-! ## Joining -/

/-- A tree with more text in front. -/
def prepend (more : String) : Tree → Tree
  | .text before => .text (more ++ before)
  | .direct before value rest => .direct (more ++ before) value rest
  | .accessor before a rest => .accessor (more ++ before) a rest
  | .block before driver body rest => .block (more ++ before) driver body rest

/-- Two trees, the last text of the first joined to the first text of the second. -/
def append : Tree → Tree → Tree
  | .text before, second => second.prepend before
  | .direct before value rest, second => .direct before value (rest.append second)
  | .accessor before a rest, second => .accessor before a (rest.append second)
  | .block before driver body rest, second => .block before driver body (rest.append second)

theorem render_prepend (placeholder more : String) (tree : Tree) (scope : Scope) :
    (tree.prepend more).render placeholder scope = more ++ tree.render placeholder scope := by
  cases tree <;> simp [prepend, render, String.append_assoc]

theorem render_append (placeholder : String) (first second : Tree) (scope : Scope) :
    (first.append second).render placeholder scope =
      first.render placeholder scope ++ second.render placeholder scope := by
  induction first with
  | text before => simp [append, render, render_prepend]
  | direct before value rest ih => simp [append, render, ih, String.append_assoc]
  | accessor before a rest ih => simp [append, render, ih, String.append_assoc]
  | block before driver body rest _ ih => simp [append, render, ih, String.append_assoc]

end Tree

end Stencil
