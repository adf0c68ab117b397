import Mathlib.Logic.ExistsUnique
import Stencil.Template

/-!
# What rendering means

A template whose sections match is a tree written out, and rendering it computes the text of the
tree. Where a template is rendered inside some sections, that is the text of the tree inside them.

## Main results

* `renderParts_eq_ok_iff_rendersAs` — the text of parts is the text that their render ends with.
* `rendersAs_tree` — the text of a tree that is written out and rendered inside any sections.
* `renderParts_computes_tree` — templates with matching sections are trees written out, and
  rendering one gives the text of the tree.
-/

namespace Stencil.Rendering

open Section

variable {fragments : List String} {slots : List Slot} {options : RenderOptions} {text : String}

/-- Inside the sections whose frames are given by `scope`, fragments and slots are rendered as
`text`. -/
def RendersAs (fragments : List String) (slots : List Slot) (options : RenderOptions)
    (scope : Scope) (text : String) : Prop :=
  ∃ r, ofParts fragments slots options = .ok r ∧ r.render scope = some text

/-- **The text of parts is the one that their render ends with.** -/
theorem renderParts_eq_ok_iff_rendersAs :
    renderParts fragments slots options = .ok text ↔
      RendersAs fragments slots options Scope.empty text := by
  unfold renderParts RendersAs
  cases ofParts fragments slots options with
  | error e => exact iff_of_false (by rintro ⟨⟩) (by rintro ⟨r, ⟨⟩, -⟩)
  | ok r =>
      constructor
      · intro hText
        exact ⟨r, rfl, toText_eq_iff.mp (Except.ok.inj hText)⟩
      · rintro ⟨r', hParts, hRender⟩
        obtain rfl := Except.ok.inj hParts
        exact congrArg Except.ok (toText_eq_iff.mpr hRender)

theorem renderParts_of_rendersAs (h : RendersAs fragments slots options Scope.empty text) :
    renderParts fragments slots options = .ok text :=
  renderParts_eq_ok_iff_rendersAs.mpr h

theorem renderParts_eq_ok {r : Rendering} (hParts : ofParts fragments slots options = .ok r)
    (hRender : r.render Scope.empty = some text) :
    renderParts fragments slots options = .ok text :=
  renderParts_of_rendersAs ⟨r, hParts, hRender⟩

/-- A tree, written out and rendered inside any sections, has the text of the tree. -/
theorem rendersAs_tree (tree : Tree) {options : RenderOptions}
    (hKept : options.collapseMarkerLines = false) (scope : Scope) :
    RendersAs tree.fragments tree.slots options scope
      (tree.render options.placeholder scope) := by
  obtain ⟨sections, hSections⟩ := (exists_ofSlots_iff tree.slots).mpr tree.balanced_slots
  obtain ⟨r, hParts, hShown, hSlots, -, hPlaceholder⟩ :=
    exists_ofParts options tree.length_fragments hSections
  have hFragments : tree.fragments = r.fragments := by
    rw [hShown, shownFragments_of_kept tree.fragments tree.slots hKept]
  have hRender := render_eq_some hFragments hSlots.symm scope
  rw [hPlaceholder] at hRender
  exact ⟨r, hParts, hRender⟩

theorem renderParts_tree (tree : Tree) (options : RenderOptions)
    (hKept : options.collapseMarkerLines = false) :
    ∃ r, ofParts tree.fragments tree.slots options = .ok r ∧
      r.render Scope.empty = some (tree.render options.placeholder Scope.empty) ∧
      renderParts tree.fragments tree.slots options =
        .ok (tree.render options.placeholder Scope.empty) := by
  obtain ⟨r, hParts, hRender⟩ := rendersAs_tree tree hKept Scope.empty
  exact ⟨r, hParts, hRender, renderParts_eq_ok hParts hRender⟩

/-- **Templates with matching sections are trees, and rendering computes the text of the
tree.** -/
theorem renderParts_computes_tree :
    (∀ (fragments : List String) (slots : List Slot),
      fragments.length = slots.length + 1 → (∃ sections, ofSlots slots = .ok sections) →
        ∃! tree : Tree, tree.fragments = fragments ∧ tree.slots = slots) ∧
      ∀ (tree : Tree) (options : RenderOptions), options.collapseMarkerLines = false →
        ∃ r, ofParts tree.fragments tree.slots options = .ok r ∧
          r.render Scope.empty = some (tree.render options.placeholder Scope.empty) ∧
          renderParts tree.fragments tree.slots options =
            .ok (tree.render options.placeholder Scope.empty) := by
  constructor
  · intro fragments slots hLength hSections
    have hBalanced := (exists_ofSlots_iff slots).mp hSections
    obtain ⟨tree, hFragments, hSlots⟩ := Tree.exists_of_balanced fragments slots hLength hBalanced
    refine ⟨tree, ⟨hFragments, hSlots⟩, ?_⟩
    rintro other ⟨hFragments', hSlots'⟩
    exact Tree.eq_of_parts (hFragments'.trans hFragments.symm) (hSlots'.trans hSlots.symm)
  · exact renderParts_tree

/-- A loop over two lists, with a loop over the items of each list inside it. -/
def nestedLoops : Tree :=
  .block ""
    (.value (.array [.array [.string "a", .string "b"], .array [.string "c"]]))
    (.block "(" (.accessor .item) (.accessor "" .item (.text "")) (.text ")"))
    (.text "")

theorem nestedLoops_sections :
    ofSlots nestedLoops.slots = .ok ⟨[some 4, some 3, none, none, none], 2⟩ := rfl

theorem renderParts_computes_tree_nestedLoops :
    (∃! tree : Tree, tree.fragments = ["", "(", "", "", ")", ""] ∧
        tree.slots = nestedLoops.slots) ∧
      renderParts ["", "(", "", "", ")", ""] nestedLoops.slots {} = .ok "(ab)(c)" := by
  obtain ⟨r, -, -, hText⟩ := renderParts_computes_tree.2 nestedLoops {} rfl
  exact ⟨renderParts_computes_tree.1 _ _ rfl ⟨_, nestedLoops_sections⟩, hText⟩

end Stencil.Rendering
