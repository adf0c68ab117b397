import Stencil.Proofs.Accessor.NormalForm
import Stencil.Proofs.Rendering.Meaning
import Stencil.Proofs.Section.Enclosing

/-!
# How far a template reaches

The accessors of a template move outwards from where they stand. As long as they move out of no
more sections than there are around them, they stay inside the template; each move beyond that
reaches one more of the frames that the whole template is rendered in. So a template that
reaches `reach` frames at most does not see the frames further out: scopes that agree on their
`reach` innermost frames give the same text.

Inside a section there is one frame more, and the accessors there may move one section further.
The frame is itself made of a value that was found in the frames being compared, so it is the
same in both scopes. A template that reaches no frame at all may be put into any section: it
shows there what it shows by itself.

## Main results

* `Tree.render_congr` — a tree has the same text in scopes that agree as far as it reaches.
* `readsWithin_of_parts` — the reach of a tree, by the sections around each of its slots.
* `render_sees_reachable_frames` — both for templates, and what becomes of a template that
  reaches no frame when a section is put around it.
-/

namespace Stencil

/-- The accessor that a slot evaluates: the one that it shows, or the driver of the section that
it opens. -/
def Slot.accessor? : Slot → Option Accessor
  | .direct _ => none
  | .opening (.value _) => none
  | .opening (.accessor a) => some a
  | .closing => none
  | .accessor a => some a

theorem Driver.evaluate_congr {driver : Driver} {scope scope' : Scope} {reach : Nat}
    (hReach : ∀ a, driver = .accessor a → a.totalUp < reach)
    (hAgree : scope.frames.take reach = scope'.frames.take reach) :
    driver.evaluate scope = driver.evaluate scope' := by
  cases driver with
  | value v => rfl
  | accessor a => exact Accessor.evaluate_congr (hReach a rfl) hAgree

namespace Tree

open Rendering

/-! ## Trees -/

/-- The accessors of a tree read no more than the `reach` innermost frames around the tree. -/
def ReadsWithin : Tree → Nat → Prop
  | .text _, _ => True
  | .direct _ _ rest, reach => rest.ReadsWithin reach
  | .accessor _ a rest, reach => a.totalUp < reach ∧ rest.ReadsWithin reach
  | .block _ driver body rest, reach =>
    (∀ a, driver = .accessor a → a.totalUp < reach) ∧ body.ReadsWithin (reach + 1) ∧
      rest.ReadsWithin reach

/-- **A tree sees no frame that it does not reach.** Scopes that agree as far as it reaches give
the same text. -/
theorem render_congr {tree : Tree} {reach : Nat} (h : tree.ReadsWithin reach)
    {scope scope' : Scope} (hAgree : scope.frames.take reach = scope'.frames.take reach)
    (placeholder : String) :
    tree.render placeholder scope = tree.render placeholder scope' := by
  induction tree generalizing reach scope scope' with
  | text before => rfl
  | direct before value rest ih => rw [Tree.render, Tree.render, ih h hAgree]
  | accessor before a rest ih =>
      rw [Tree.render, Tree.render, Accessor.evaluate_congr h.1 hAgree, ih h.2 hAgree]
  | block before driver body rest ihBody ihRest =>
      obtain ⟨hDriver, hBody, hRest⟩ := h
      have hShown : ∀ frames, repeated placeholder body scope frames =
          repeated placeholder body scope' frames := by
        apply repeated_congr
        intro frame
        -- the new frame is the same in both scopes, and the body may reach one further
        apply ihBody hBody
        show (frame :: scope.frames).take (reach + 1) = (frame :: scope'.frames).take (reach + 1)
        rw [List.take_succ_cons, List.take_succ_cons, hAgree]
      rw [render_block, render_block, Driver.evaluate_congr hDriver hAgree, hShown,
        ihRest hRest hAgree]

/-- A section around a tree that reaches no frame shows the text of the tree once for each frame
that it opens. -/
theorem render_block_of_readsWithin_zero {body : Tree} (h : body.ReadsWithin 0)
    (placeholder before after : String) (v : Value) :
    (Tree.block before (.value v) body (.text after)).render placeholder Scope.empty =
      before ++ String.join (List.replicate (Frame.expand v).length
        (body.render placeholder Scope.empty)) ++ after := by
  have hShown : ∀ frame, body.render placeholder (Scope.empty.push frame) =
      body.render placeholder Scope.empty := fun frame => render_congr h (by simp) placeholder
  rw [render_block, repeated, List.map_congr_left fun frame _ => hShown frame, List.map_const']
  rfl

end Tree

namespace Rendering

open Section

variable {r : Rendering}

/-! ## Templates -/

/-- Each accessor of a template moves out of fewer sections than stand around its slot, `reach`
more counted in. -/
def SlotsReadWithin (slots : List Slot) (sections : SectionMap) (reach : Nat) : Prop :=
  ∀ j a, slots[j]?.bind Slot.accessor? = some a →
    a.totalUp < (sections.enclosing j).length + reach

/-- How far the accessor moves that stands where a tree starts. -/
theorem totalUp_lt_of_at {reach depth n : Nat} {tree : Tree} {slot : Slot} {more : List Slot}
    {a : Accessor} (hReads : SlotsReadWithin r.slots r.sections reach) (h : r.At tree n)
    (hDepth : height (r.slots.map Slot.kind) n = depth) (hSlots : tree.slots = slot :: more)
    (ha : slot.accessor? = some a) : a.totalUp < depth + reach := by
  have hNe : slot.kind ≠ .sectionEnd := by
    intro hEnd
    rw [(Slot.kind_eq_sectionEnd_iff slot).mp hEnd] at ha
    cases ha
  have hAround := length_enclosing r.ofSlots_eq (h.kind_at hSlots) hNe
  have hTotal := hReads n a (by rw [h.slot_at hSlots]; exact ha)
  omega

/-- What a tree reads, where `depth` sections stand around the place that it starts from. -/
theorem readsWithin_of_at {reach : Nat} (hReads : SlotsReadWithin r.slots r.sections reach)
    (tree : Tree) {n depth : Nat} (h : r.At tree n)
    (hDepth : height (r.slots.map Slot.kind) n = depth) :
    tree.ReadsWithin (depth + reach) := by
  induction tree generalizing n depth with
  | text before => trivial
  | direct before value rest ih =>
      have hNext := height_skip (h.kind_at rfl) rfl
      exact ih h.of_direct (hNext.trans hDepth)
  | accessor before a rest ih =>
      have hNext := height_skip (h.kind_at rfl) rfl
      constructor
      · exact totalUp_lt_of_at hReads h hDepth rfl rfl
      · exact ih h.of_accessor (hNext.trans hDepth)
  | block before driver body rest ihBody ihRest =>
      have hInside := height_succ (h.kind_at rfl)
      have hBehind := h.matches_section.height_behind
      simp only [Slot.kind, rise] at hInside
      refine ⟨?_, ?_, ihRest h.behind (hBehind.trans hDepth)⟩
      · intro a hDriver
        exact totalUp_lt_of_at hReads h hDepth rfl (hDriver ▸ rfl)
      · rw [Nat.add_right_comm]
        exact ihBody h.body (by omega)

theorem readsWithin_of_parts {tree : Tree} {reach : Nat}
    (hReads : SlotsReadWithin r.slots r.sections reach)
    (hFragments : tree.fragments = r.fragments) (hSlots : tree.slots = r.slots) :
    tree.ReadsWithin reach := by
  have hTree := readsWithin_of_at hReads tree (.whole hFragments hSlots) (height_zero _)
  rwa [Nat.zero_add] at hTree

/-- The text of parts with a section around them that reach no frame outside. -/
theorem renderParts_block_of_readsWithin_zero {tree : Tree} {options : RenderOptions}
    (hReads : tree.ReadsWithin 0) (hKept : options.collapseMarkerLines = false)
    (before after : String) (v : Value) :
    renderParts (before :: (tree.fragments ++ [after]))
        (.opening (.value v) :: (tree.slots ++ [.closing])) options =
      .ok (before ++ String.join (List.replicate (Frame.expand v).length
        (tree.render options.placeholder Scope.empty)) ++ after) := by
  rw [← Tree.render_block_of_readsWithin_zero hReads]
  obtain ⟨-, -, -, hText⟩ :=
    renderParts_tree (.block before (.value v) tree (.text after)) options hKept
  exact hText

/-- **A template sees only the frames that it reaches.** If each of its accessors moves out of
fewer sections than stand around its slot, `reach` more counted in, then scopes that agree on
their `reach` innermost frames give the same text. If it reaches no frame at all, a section
around it repeats its text: once for each item of a list, once for any other true value, not at
all for a false one. -/
theorem render_sees_reachable_frames (fragments : List String) (slots : List Slot)
    (options : RenderOptions) {sections : SectionMap} {reach : Nat}
    (hLength : fragments.length = slots.length + 1)
    (hSections : ofSlots slots = .ok sections)
    (hReads : SlotsReadWithin slots sections reach) :
    (∃ r, ofParts fragments slots options = .ok r ∧
        ∀ scope scope' : Scope, scope.frames.take reach = scope'.frames.take reach →
          ∃ text, r.render scope = some text ∧ r.render scope' = some text) ∧
      (reach = 0 → options.collapseMarkerLines = false →
        ∃ text, renderParts fragments slots options = .ok text ∧
          ∀ (v : Value) (before after : String),
            (∀ items, v = .array items →
                renderParts (before :: (fragments ++ [after]))
                    (.opening (.value v) :: (slots ++ [.closing])) options =
                  .ok (before ++ String.join (List.replicate items.length text) ++ after)) ∧
              (v.items? = none → v.isTruthy = true →
                renderParts (before :: (fragments ++ [after]))
                    (.opening (.value v) :: (slots ++ [.closing])) options =
                  .ok (before ++ text ++ after)) ∧
              (v.isTruthy = false →
                renderParts (before :: (fragments ++ [after]))
                    (.opening (.value v) :: (slots ++ [.closing])) options =
                  .ok (before ++ after))) := by
  obtain ⟨r, hParts, hShown, hSlotsEq, hSectionsEq, -⟩ := exists_ofParts options hLength hSections
  obtain ⟨tree, hFragments, hSlots⟩ := exists_tree r
  have hTree : tree.ReadsWithin reach := by
    rw [← hSlotsEq, ← hSectionsEq] at hReads
    exact readsWithin_of_parts hReads hFragments hSlots
  constructor
  · refine ⟨r, hParts, fun scope scope' hAgree => ?_⟩
    refine ⟨tree.render r.placeholder scope, render_eq_some hFragments hSlots scope, ?_⟩
    rw [Tree.render_congr hTree hAgree]
    exact render_eq_some hFragments hSlots scope'
  · intro hReach hKept
    subst hReach
    obtain rfl : tree.fragments = fragments := by
      rw [hFragments, hShown, shownFragments_of_kept fragments slots hKept]
    obtain rfl : tree.slots = slots := hSlots.trans hSlotsEq
    obtain ⟨-, -, -, hText⟩ := renderParts_tree tree options hKept
    refine ⟨_, hText, fun v before after => ?_⟩
    rw [renderParts_block_of_readsWithin_zero hTree hKept]
    refine ⟨fun items hItems => ?_, fun hList hTruthy => ?_, fun hFalsy => ?_⟩
    · rw [hItems, Frame.expand_array, List.length_map, List.length_range]
    · rw [Frame.expand_truthy hList hTruthy]
      simp
    · rw [Frame.expand_falsy hFalsy]
      simp

/-- The accessors of `nestedLoops` stay inside its loops, so a loop around it repeats its
text. -/
theorem render_sees_reachable_frames_nestedLoops :
    nestedLoops.fragments.length = nestedLoops.slots.length + 1 ∧
      SlotsReadWithin nestedLoops.slots ⟨[some 4, some 3, none, none, none], 2⟩ 0 ∧
      renderParts ("<" :: (nestedLoops.fragments ++ [">"]))
          (.opening (.value (.array [.null, .null])) :: (nestedLoops.slots ++ [.closing])) {} =
        .ok "<(ab)(c)(ab)(c)>" := by
  have hReads : SlotsReadWithin nestedLoops.slots ⟨[some 4, some 3, none, none, none], 2⟩ 0 := by
    intro j a ha
    match j with
    | 0 => cases ha
    | 1 =>
        obtain rfl := Option.some.inj ha
        decide
    | 2 =>
        obtain rfl := Option.some.inj ha
        decide
    | 3 => cases ha
    | 4 => cases ha
    | j + 5 => cases ha
  refine ⟨rfl, hReads, ?_⟩
  obtain ⟨text, hText, hBlock⟩ := (render_sees_reachable_frames nestedLoops.fragments
    nestedLoops.slots {} rfl nestedLoops_sections hReads).2 rfl rfl
  obtain ⟨-, -, -, hTree⟩ := renderParts_tree nestedLoops {} rfl
  obtain rfl : "(ab)(c)" = text := Except.ok.inj (hTree.symm.trans hText)
  exact (hBlock (.array [.null, .null]) "<" ">").1 _ rfl

end Rendering

end Stencil
