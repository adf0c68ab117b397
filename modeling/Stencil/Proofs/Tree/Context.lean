import Stencil.Proofs.Rendering.Meaning

/-!
# Trees with a gap

A tree with a gap is what stands around a place in a tree, however deep that place is inside
sections. Filling the gap gives a tree; written out, it is what stands in front of the gap, the
tree that fills it, and what stands behind. The text of the whole depends on what fills the gap
through the text of that alone, whatever loops the gap is inside of.

## Main results

* `fragments_fill`, `slots_fill` — what a filled gap is written out as.
* `render_fill_congr` — trees with the same text in every scope may stand for one another.
* `exists_fill_of_opening` — every section of a tree fills a gap.
-/

namespace Stencil.Tree

open Rendering

/-- A tree with a gap where some tree may go on to the end of the body that it stands in. -/
inductive Context
  | gap
  | direct (before : String) (value : Value) (rest : Context)
  | accessor (before : String) (a : Accessor) (rest : Context)
  /-- The gap is inside the body of a section. -/
  | inside (before : String) (driver : Driver) (body : Context) (rest : Tree)
  /-- The gap is behind a section. -/
  | behind (before : String) (driver : Driver) (body : Tree) (rest : Context)

namespace Context

def fill : Context → Tree → Tree
  | .gap, tree => tree
  | .direct before value rest, tree => .direct before value (rest.fill tree)
  | .accessor before a rest, tree => .accessor before a (rest.fill tree)
  | .inside before driver body rest, tree => .block before driver (body.fill tree) rest
  | .behind before driver body rest, tree => .block before driver body (rest.fill tree)

/-! ## Writing out -/

/-- The literal text in front of the gap. -/
def textsBefore : Context → List String
  | .gap => []
  | .direct before _ rest => before :: rest.textsBefore
  | .accessor before _ rest => before :: rest.textsBefore
  | .inside before _ body _ => before :: body.textsBefore
  | .behind before _ body rest => before :: (body.fragments ++ rest.textsBefore)

/-- The literal text behind the gap. -/
def textsBehind : Context → List String
  | .gap => []
  | .direct _ _ rest => rest.textsBehind
  | .accessor _ _ rest => rest.textsBehind
  | .inside _ _ body rest => body.textsBehind ++ rest.fragments
  | .behind _ _ _ rest => rest.textsBehind

/-- The slots in front of the gap. -/
def slotsBefore : Context → List Slot
  | .gap => []
  | .direct _ value rest => .direct value :: rest.slotsBefore
  | .accessor _ a rest => .accessor a :: rest.slotsBefore
  | .inside _ driver body _ => .opening driver :: body.slotsBefore
  | .behind _ driver body rest => .opening driver :: (body.slots ++ .closing :: rest.slotsBefore)

/-- The slots behind the gap. -/
def slotsBehind : Context → List Slot
  | .gap => []
  | .direct _ _ rest => rest.slotsBehind
  | .accessor _ _ rest => rest.slotsBehind
  | .inside _ _ body rest => body.slotsBehind ++ .closing :: rest.slots
  | .behind _ _ _ rest => rest.slotsBehind

theorem fragments_fill (context : Context) (tree : Tree) :
    (context.fill tree).fragments =
      context.textsBefore ++ (tree.fragments ++ context.textsBehind) := by
  induction context with
  | gap => simp [fill, textsBefore, textsBehind]
  | direct before value rest ih => simp [fill, fragments, textsBefore, textsBehind, ih]
  | accessor before a rest ih => simp [fill, fragments, textsBefore, textsBehind, ih]
  | inside before driver body rest ih => simp [fill, fragments, textsBefore, textsBehind, ih]
  | behind before driver body rest ih => simp [fill, fragments, textsBefore, textsBehind, ih]

theorem slots_fill (context : Context) (tree : Tree) :
    (context.fill tree).slots = context.slotsBefore ++ (tree.slots ++ context.slotsBehind) := by
  induction context with
  | gap => simp [fill, slotsBefore, slotsBehind]
  | direct before value rest ih => simp [fill, slots, slotsBefore, slotsBehind, ih]
  | accessor before a rest ih => simp [fill, slots, slotsBefore, slotsBehind, ih]
  | inside before driver body rest ih => simp [fill, slots, slotsBefore, slotsBehind, ih]
  | behind before driver body rest ih => simp [fill, slots, slotsBefore, slotsBehind, ih]

/-- In front of the gap each slot has its fragment. -/
theorem length_textsBefore (context : Context) :
    context.textsBefore.length = context.slotsBefore.length := by
  induction context with
  | gap => rfl
  | direct before value rest ih => simp [textsBefore, slotsBefore, ih]
  | accessor before a rest ih => simp [textsBefore, slotsBefore, ih]
  | inside before driver body rest ih => simp [textsBefore, slotsBefore, ih]
  | behind before driver body rest ih =>
      simp [textsBefore, slotsBefore, ih, length_fragments]
      omega

/-! ## Text -/

/-- **Trees with the same text in every scope may stand for one another**, in loops as well as
outside. -/
theorem render_fill_congr {placeholder : String} {tree other : Tree}
    (h : ∀ scope, tree.render placeholder scope = other.render placeholder scope)
    (context : Context) (scope : Scope) :
    (context.fill tree).render placeholder scope =
      (context.fill other).render placeholder scope := by
  induction context generalizing scope with
  | gap => exact h scope
  | direct before value rest ih => rw [fill, fill, render, render, ih]
  | accessor before a rest ih => rw [fill, fill, render, render, ih]
  | inside before driver body rest ih =>
      have hShown : ∀ frames, repeated placeholder (body.fill tree) scope frames =
          repeated placeholder (body.fill other) scope frames := by
        intro frames
        apply congrArg String.join
        apply List.map_congr_left
        intro frame _
        exact ih (scope.push frame)
      rw [fill, fill, render_block, render_block, hShown]
  | behind before driver body rest ih => rw [fill, fill, render_block, render_block, ih]

/-! ## Finding the gap -/

/-- Every section of a tree fills a gap, at the place of its start. -/
theorem exists_fill_of_opening {tree : Tree} {n : Nat} {driver : Driver}
    (h : tree.slots[n]? = some (.opening driver)) :
    ∃ context before body rest, tree = fill context (.block before driver body rest) ∧
      context.slotsBefore.length = n := by
  induction tree generalizing n with
  | text before => simp [slots] at h
  | direct before value rest ih =>
      cases n with
      | zero => simp [slots] at h
      | succ n =>
          obtain ⟨context, text, inner, more, rfl, rfl⟩ := ih (by simpa [slots] using h)
          exact ⟨.direct before value context, text, inner, more, rfl, rfl⟩
  | accessor before a rest ih =>
      cases n with
      | zero => simp [slots] at h
      | succ n =>
          obtain ⟨context, text, inner, more, rfl, rfl⟩ := ih (by simpa [slots] using h)
          exact ⟨.accessor before a context, text, inner, more, rfl, rfl⟩
  | block before outer body rest ihBody ihRest =>
      cases n with
      | zero =>
          obtain rfl : outer = driver := by simpa [slots] using h
          exact ⟨.gap, before, body, rest, rfl, rfl⟩
      | succ n =>
          rw [slots, List.getElem?_cons_succ] at h
          by_cases hBody : n < body.slots.length
          · rw [List.getElem?_append_left hBody] at h
            obtain ⟨context, text, inner, more, rfl, rfl⟩ := ihBody h
            exact ⟨.inside before outer context rest, text, inner, more, rfl, rfl⟩
          · obtain ⟨m, rfl⟩ := Nat.exists_eq_add_of_le (Nat.le_of_not_lt hBody)
            rw [Section.getElem?_append_add] at h
            cases m with
            | zero => simp at h
            | succ m =>
                obtain ⟨context, text, inner, more, rfl, rfl⟩ := ihRest (by simpa using h)
                refine ⟨.behind before outer body context, text, inner, more, rfl, ?_⟩
                simp [slotsBefore]

end Context

end Stencil.Tree
