import Stencil.Proofs.Rendering.Meaning
import Stencil.Proofs.Template.Joining

/-!
# One template behind another

Two templates are put one behind the other by joining their literal text where they meet. All
slots of the second stand further back than before, and so do the ends of its sections; a render
walks over both in one range. The text is nevertheless that of the first followed by that of the
second, whatever the frames around: every section of the first is left before the second
begins, and the frames are again the ones that the first began with.

## Main results

* `exists_joined_trees` — the trees of two templates, and of the one behind the other.
* `render_joins_texts` — the text of two templates, one behind the other.
-/

namespace Stencil.Rendering

open Section

variable {fragments others : List String} {slots more : List Slot}

/-- The trees of two templates, one behind the other, are the tree of both. -/
theorem exists_joined_trees {sections rest : SectionMap}
    (hLength : fragments.length = slots.length + 1) (hOthers : others.length = more.length + 1)
    (hSlots : ofSlots slots = .ok sections) (hMore : ofSlots more = .ok rest) :
    ∃ first second : Tree, (first.fragments = fragments ∧ first.slots = slots) ∧
      (second.fragments = others ∧ second.slots = more) ∧
      (first.append second).fragments = joinEnds fragments others ∧
      (first.append second).slots = slots ++ more := by
  obtain ⟨first, rfl, rfl⟩ :=
    Tree.exists_of_balanced fragments slots hLength (balanced_of_ofSlots hSlots)
  obtain ⟨second, rfl, rfl⟩ :=
    Tree.exists_of_balanced others more hOthers (balanced_of_ofSlots hMore)
  exact ⟨first, second, ⟨rfl, rfl⟩, ⟨rfl, rfl⟩, first.fragments_append second,
    first.slots_append second⟩

/-- Inside any sections, one template behind another shows the text of the first and then the
text of the second. -/
theorem exists_texts_joined {sections rest : SectionMap} {options : RenderOptions}
    (hKept : options.collapseMarkerLines = false)
    (hLength : fragments.length = slots.length + 1) (hOthers : others.length = more.length + 1)
    (hSlots : ofSlots slots = .ok sections) (hMore : ofSlots more = .ok rest) (scope : Scope) :
    ∃ text next, RendersAs fragments slots options scope text ∧
      RendersAs others more options scope next ∧
      RendersAs (joinEnds fragments others) (slots ++ more) options scope (text ++ next) := by
  obtain ⟨first, second, ⟨rfl, rfl⟩, ⟨rfl, rfl⟩, hFragments, hBoth⟩ :=
    exists_joined_trees hLength hOthers hSlots hMore
  have hJoined := rendersAs_tree (first.append second) hKept scope
  rw [hFragments, hBoth, Tree.render_append] at hJoined
  exact ⟨_, _, rendersAs_tree first hKept scope, rendersAs_tree second hKept scope, hJoined⟩

/-- **The text of two templates, one behind the other,** is the text of the first followed by
the text of the second, outside all sections and inside any. -/
theorem render_joins_texts {sections rest : SectionMap} (options : RenderOptions)
    (hKept : options.collapseMarkerLines = false)
    (hLength : fragments.length = slots.length + 1) (hOthers : others.length = more.length + 1)
    (hSlots : ofSlots slots = .ok sections) (hMore : ofSlots more = .ok rest) :
    (∃ text next, renderParts fragments slots options = .ok text ∧
        renderParts others more options = .ok next ∧
        renderParts (joinEnds fragments others) (slots ++ more) options = .ok (text ++ next)) ∧
      ∀ scope, ∃ text next, RendersAs fragments slots options scope text ∧
        RendersAs others more options scope next ∧
        RendersAs (joinEnds fragments others) (slots ++ more) options scope (text ++ next) := by
  constructor
  · obtain ⟨text, next, hText, hNext, hJoined⟩ :=
      exists_texts_joined hKept hLength hOthers hSlots hMore Scope.empty
    exact ⟨text, next, renderParts_of_rendersAs hText, renderParts_of_rendersAs hNext,
      renderParts_of_rendersAs hJoined⟩
  · exact exists_texts_joined hKept hLength hOthers hSlots hMore

/-- An accessor behind the loops of `nestedLoops` sees none of their items. -/
theorem render_joins_texts_behind_loops :
    nestedLoops.fragments.length = nestedLoops.slots.length + 1 ∧
      ofSlots nestedLoops.slots = .ok ⟨[some 4, some 3, none, none, none], 2⟩ ∧
      ofSlots [.accessor .item] = .ok ⟨[none], 0⟩ ∧
      renderParts (joinEnds nestedLoops.fragments ["-", "."])
        (nestedLoops.slots ++ [.accessor .item]) ⟨false, "?"⟩ = .ok "(ab)(c)-?." := by
  have hLength := nestedLoops.length_fragments
  have hCount : ["-", "."].length = [Slot.accessor .item].length + 1 := rfl
  have hItem : ofSlots [.accessor .item] = .ok ⟨[none], 0⟩ := rfl
  refine ⟨hLength, nestedLoops_sections, hItem, ?_⟩
  obtain ⟨text, next, hText, hNext, hJoined⟩ :=
    (render_joins_texts ⟨false, "?"⟩ rfl hLength hCount nestedLoops_sections hItem).1
  obtain ⟨-, -, -, hLoops⟩ := renderParts_tree nestedLoops ⟨false, "?"⟩ rfl
  obtain ⟨-, -, -, hBehind⟩ :=
    renderParts_tree (.accessor "-" .item (.text ".")) ⟨false, "?"⟩ rfl
  obtain rfl : "(ab)(c)" = text := Except.ok.inj (hLoops.symm.trans hText)
  obtain rfl : "-?." = next := Except.ok.inj (hBehind.symm.trans hNext)
  exact hJoined

end Stencil.Rendering
