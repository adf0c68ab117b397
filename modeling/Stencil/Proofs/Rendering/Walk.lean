import Stencil.Proofs.Rendering.Steps
import Stencil.Proofs.Tree.Parts

/-!
# The walk over a tree

The machine that renders a template knows positions and a table of section ends; a tree knows
neither. A walk over the range where a tree stands nevertheless adds the text of the tree, no
more and no less, and leaves frames and remaining tasks as they were. By recursion on the tree
that takes in every section inside it, shown once, many times or not at all. So every render comes
to its end, and nothing that it looks for on the way is missing.

## Main results

* `reaches_tree` — a walk over the range of a tree adds the text of the tree.
* `exists_tree` — a rendering is that of a tree.
* `reaches_behind` — a section gets to its end.
* `render_eq_some` — the text of a rendering is the text of its tree.
* `isSome_render` — every rendering has a text.
-/

namespace Stencil.Rendering

open Section

/-! ## Where a tree stands -/

section Lists

variable {α : Type} {all : List α} {n : Nat}

private theorem getElem?_of_drop {x : α} {xs : List α} (h : x :: xs <+: all.drop n) :
    all[n]? = some x := by
  obtain ⟨tail, hTail⟩ := h
  rw [← List.head?_drop, ← hTail]
  rfl

private theorem prefix_drop_of_cons {x : α} {xs : List α} (h : x :: xs <+: all.drop n) :
    xs <+: all.drop (n + 1) := by
  obtain ⟨tail, hTail⟩ := h
  refine ⟨tail, ?_⟩
  rw [← List.drop_drop, ← hTail]
  rfl

private theorem prefix_drop_of_append {xs ys : List α} (h : xs ++ ys <+: all.drop n) :
    xs <+: all.drop n ∧ ys <+: all.drop (n + xs.length) := by
  obtain ⟨tail, hTail⟩ := h
  refine ⟨⟨ys ++ tail, by rw [← List.append_assoc, hTail]⟩, ⟨tail, ?_⟩⟩
  rw [← List.drop_drop, ← hTail, List.append_assoc, List.drop_left]

end Lists

/-- The tree is written out from position `n` on. -/
structure At (r : Rendering) (tree : Tree) (n : Nat) : Prop where
  fragments : tree.fragments <+: r.fragments.drop n
  slots : tree.slots <+: r.slots.drop n

variable {r : Rendering} {n : Nat} {before : String} {inner rest : Tree} {driver : Driver}

namespace At

theorem whole {tree : Tree} (hFragments : tree.fragments = r.fragments)
    (hSlots : tree.slots = r.slots) : r.At tree 0 :=
  ⟨by simp [hFragments], by simp [hSlots]⟩

theorem slot_at {tree : Tree} {slot : Slot} {more : List Slot} (h : r.At tree n)
    (hSlots : tree.slots = slot :: more) : r.slots[n]? = some slot :=
  getElem?_of_drop (hSlots ▸ h.slots)

theorem kind_at {tree : Tree} {slot : Slot} {more : List Slot} (h : r.At tree n)
    (hSlots : tree.slots = slot :: more) :
    (r.slots.map Slot.kind)[n]? = some slot.kind := by
  rw [List.getElem?_map, h.slot_at hSlots]
  rfl

theorem of_direct {value : Value} (h : r.At (.direct before value rest) n) :
    r.At rest (n + 1) :=
  ⟨prefix_drop_of_cons h.fragments, prefix_drop_of_cons h.slots⟩

theorem of_accessor {a : Accessor} (h : r.At (.accessor before a rest) n) :
    r.At rest (n + 1) :=
  ⟨prefix_drop_of_cons h.fragments, prefix_drop_of_cons h.slots⟩

theorem body (h : r.At (.block before driver inner rest) n) : r.At inner (n + 1) :=
  ⟨(prefix_drop_of_append (prefix_drop_of_cons h.fragments)).1,
    (prefix_drop_of_append (prefix_drop_of_cons h.slots)).1⟩

theorem closing (h : r.At (.block before driver inner rest) n) :
    r.slots[n + 1 + inner.slots.length]? = some .closing :=
  getElem?_of_drop (prefix_drop_of_append (prefix_drop_of_cons h.slots)).2

theorem behind (h : r.At (.block before driver inner rest) n) :
    r.At rest (n + 1 + inner.slots.length + 1) := by
  have hFragments := (prefix_drop_of_append (prefix_drop_of_cons h.fragments)).2
  rw [Tree.length_fragments, ← Nat.add_assoc] at hFragments
  have hSlots := (prefix_drop_of_append (prefix_drop_of_cons h.slots)).2
  exact ⟨hFragments, prefix_drop_of_cons hSlots⟩

theorem matches_section (h : r.At (.block before driver inner rest) n) :
    Matches (r.slots.map Slot.kind) n (n + 1 + inner.slots.length) where
  start_at := h.kind_at rfl
  end_at := by
    rw [List.getElem?_map, h.closing]
    rfl
  lt := by omega
  inside := by
    have hBody : (r.slots.drop (n + 1)).take inner.slots.length = inner.slots :=
      (List.prefix_iff_eq_take.mp h.body.slots).symm
    rw [slice, List.drop_take, ← List.map_drop, ← List.map_take, Nat.add_sub_cancel_left, hBody]
    exact inner.balanced_slots

theorem endOf (h : r.At (.block before driver inner rest) n) :
    r.sections.endOf n = some (n + 1 + inner.slots.length) :=
  (endOf_iff_matches r.ofSlots_eq _ _).mpr h.matches_section

end At

/-! ## Walking over a tree -/

/-- The texts of a body, one after the other, inside each of the frames. -/
def repeated (placeholder : String) (body : Tree) (scope : Scope) (frames : List Frame) :
    String :=
  String.join (frames.map fun frame => body.render placeholder (scope.push frame))

/-- It is enough that the body has the same text inside each frame by itself. -/
theorem repeated_congr {placeholder : String} {body : Tree} {scope scope' : Scope}
    (h : ∀ frame, body.render placeholder (scope.push frame) =
      body.render placeholder (scope'.push frame)) (frames : List Frame) :
    repeated placeholder body scope frames = repeated placeholder body scope' frames := by
  apply congrArg String.join
  apply List.map_congr_left
  intro frame _
  exact h frame

/-- A section shows its body inside each of the frames that it opens. -/
theorem render_block (placeholder : String) (before : String) (driver : Driver)
    (body rest : Tree) (scope : Scope) :
    (Tree.block before driver body rest).render placeholder scope =
      before ++ repeated placeholder body scope (Frame.expand (driver.evaluate scope)) ++
        rest.render placeholder scope := by
  simp only [Tree.render, repeated]
  congr 2
  cases hValue : driver.evaluate scope with
  | array items => simp [Frame.expand_array, Function.comp_def]
  | _ =>
      simp only [Frame.expand]
      split <;> simp

/-- If a walk over a body adds its text inside every frame, a section adds the texts for all
its frames. -/
theorem reaches_body {start stop : Nat} {body : Tree}
    (h : ∀ {tasks : List Task} {scope : Scope} {text : String},
      r.Reaches ⟨.range start start stop :: tasks, scope, text⟩
        ⟨tasks, scope, text ++ body.render r.placeholder scope⟩)
    (frames : List Frame) {tasks : List Task} {scope : Scope} {text : String} :
    r.Reaches ⟨.body start stop frames :: tasks, scope, text⟩
      ⟨tasks, scope, text ++ repeated r.placeholder body scope frames⟩ := by
  induction frames generalizing text with
  | nil =>
      apply Reaches.head step_body_nil
      rw [repeated, List.map_nil, String.join_nil, String.append_empty]
      exact .refl
  | cons frame more ih =>
      apply Reaches.head step_body
      apply h.trans
      apply Reaches.head step_leave
      rw [repeated, List.map_cons, String.join_cons, ← String.append_assoc]
      exact ih

/-- **A walk over the range of a tree adds the text of the tree.** Frames and remaining tasks
are as they were before. -/
theorem reaches_tree (tree : Tree) {start n stop : Nat} {tasks : List Task} {scope : Scope}
    {text : String} (h : r.At tree n) (hStop : stop = n + tree.slots.length + 1) :
    r.Reaches ⟨.range start n stop :: tasks, scope, text⟩
      ⟨tasks, scope, text ++ tree.render r.placeholder scope⟩ := by
  induction tree generalizing start n stop tasks scope text with
  | text before =>
      subst hStop
      have hFragment := getElem?_of_drop h.fragments
      exact .head (step_last (Nat.succ_pos _) (Nat.le_refl _) hFragment) .refl
  | direct before value rest ih =>
      simp only [Tree.slots, List.length_cons] at hStop
      have hLt : n + 1 < stop := by omega
      apply Reaches.head (step_slot hLt (getElem?_of_drop h.fragments) (getElem?_of_drop h.slots))
      rw [visit_direct, Tree.render, ← String.append_assoc, ← String.append_assoc]
      exact ih h.of_direct (by omega)
  | accessor before a rest ih =>
      simp only [Tree.slots, List.length_cons] at hStop
      have hLt : n + 1 < stop := by omega
      apply Reaches.head (step_slot hLt (getElem?_of_drop h.fragments) (getElem?_of_drop h.slots))
      rw [visit_accessor, Tree.render, ← String.append_assoc, ← String.append_assoc]
      exact ih h.of_accessor (by omega)
  | block before driver body rest ihBody ihRest =>
      simp only [Tree.slots, List.length_cons, List.length_append] at hStop
      have hLt : n + 1 < stop := by omega
      apply Reaches.head (step_slot hLt (getElem?_of_drop h.fragments) (getElem?_of_drop h.slots))
      rw [visit_opening h.endOf, render_block, ← String.append_assoc, ← String.append_assoc]
      -- the body is shown inside each frame, and then the walk goes on behind the end
      apply (reaches_body (ihBody h.body rfl) _).trans
      exact ihRest h.behind (by omega)

/-- Between matching markers stands a tree. -/
theorem exists_body {s e : Nat} (h : Matches (r.slots.map Slot.kind) s e) :
    ∃ body : Tree, r.At body (s + 1) ∧ e + 1 = s + 1 + body.slots.length + 1 := by
  have hEnd : e < r.slots.length := by simpa using h.end_lt_length
  have hLt := h.lt
  have hCount := r.length_fragments
  have hKinds : (slice r.slots (s + 1) e).map Slot.kind =
      slice (r.slots.map Slot.kind) (s + 1) e := by
    simp [slice, List.map_drop, List.map_take]
  have hLength : (slice r.fragments (s + 1) (e + 1)).length =
      (slice r.slots (s + 1) e).length + 1 := by
    rw [length_slice (by omega), length_slice (by omega)]
    omega
  obtain ⟨body, hFragments, hSlots⟩ := Tree.exists_of_balanced _ _ hLength (hKinds ▸ h.inside)
  refine ⟨body, ⟨?_, ?_⟩, ?_⟩
  · rw [hFragments, slice, List.drop_take]
    exact List.take_prefix _ _
  · rw [hSlots, slice, List.drop_take]
    exact List.take_prefix _ _
  · rw [hSlots, length_slice (by omega)]
    omega

/-- A section gets to its end and leaves frames and remaining tasks as they were. -/
theorem reaches_behind {s e : Nat} (h : Matches (r.slots.map Slot.kind) s e)
    (frames : List Frame) (tasks : List Task) (scope : Scope) (text : String) :
    ∃ more, r.Reaches ⟨.body (s + 1) (e + 1) frames :: tasks, scope, text⟩
      ⟨tasks, scope, text ++ more⟩ := by
  obtain ⟨body, hAt, hStop⟩ := exists_body h
  exact ⟨_, reaches_body (reaches_tree body hAt hStop) frames⟩

/-! ## The whole template -/

theorem exists_tree (r : Rendering) :
    ∃ tree : Tree, tree.fragments = r.fragments ∧ tree.slots = r.slots :=
  Tree.exists_of_balanced r.fragments r.slots r.length_fragments
    (balanced_of_ofSlots r.ofSlots_eq)

/-- A render gets to its end with the text of its tree and the frames that it started with. -/
theorem reaches_end {tree : Tree} (hFragments : tree.fragments = r.fragments)
    (hSlots : tree.slots = r.slots) (scope : Scope) :
    r.Reaches (r.start scope) ⟨[], scope, tree.render r.placeholder scope⟩ := by
  have hAt : r.At tree 0 := .whole hFragments hSlots
  have hStop : r.fragments.length = 0 + tree.slots.length + 1 := by
    rw [r.length_fragments, hSlots, Nat.zero_add]
  have hReach : r.Reaches (r.start scope) ⟨[], scope, "" ++ tree.render r.placeholder scope⟩ :=
    reaches_tree tree hAt hStop
  rwa [String.empty_append] at hReach

/-- **The text of a rendering is the text of its tree.** In particular it has one. -/
theorem render_eq_some {tree : Tree} (hFragments : tree.fragments = r.fragments)
    (hSlots : tree.slots = r.slots) (scope : Scope) :
    r.render scope = some (tree.render r.placeholder scope) := by
  rw [render, run_of_reaches (reaches_end hFragments hSlots scope), run_done]

/-- **Every rendering has a text**, inside whatever sections. -/
theorem isSome_render (r : Rendering) (scope : Scope) : (r.render scope).isSome := by
  obtain ⟨tree, hFragments, hSlots⟩ := exists_tree r
  rw [render_eq_some hFragments hSlots scope]
  rfl

end Stencil.Rendering
