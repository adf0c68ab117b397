import Stencil.Proofs.Rendering.Lockstep
import Stencil.Proofs.Rendering.Refusal

/-!
# Collapsing removes nothing but newlines

Collapsing marker lines shortens some of the fragments by a newline each and leaves everything
else alone: the slots, what they show, and how often each fragment is copied. So the text of a
template with its marker lines collapsed is its plain text with some newlines left out, which all
come from literal text. Newlines in the values that are shown stay.

## Main results

* `thinned_collapse` — collapsing leaves out nothing but newlines, fragment by fragment.
* `renderParts_collapse` — rendering with marker lines collapsed is rendering the collapsed
  fragments.
* `collapsed_text_lacks_only_newlines` — what collapsing does to the text of a template.
-/

namespace Stencil.MarkerLines

/-- `text` is `whole` with some newlines left out. -/
structure Thinned (text whole : String) : Prop where
  sublist : text.toList.Sublist whole.toList
  /-- All that is left out are newlines. -/
  filter_eq : text.toList.filter (· ≠ '\n') = whole.toList.filter (· ≠ '\n')

theorem textRelation_thinned : TextRelation Thinned where
  refl text := ⟨List.Sublist.refl _, rfl⟩
  append := by
    intro a b c d h h'
    constructor
    · rw [String.toList_append, String.toList_append]
      exact h.sublist.append h'.sublist
    · rw [String.toList_append, String.toList_append, List.filter_append, List.filter_append,
        h.filter_eq, h'.filter_eq]

/-! ## Fragments -/

theorem thinned_withoutNewline {text rest : String} (h : withoutNewline? text = some rest) :
    Thinned rest text := by
  unfold withoutNewline? at h
  split at h
  · rename_i tail hText
    obtain rfl := Option.some.inj h
    constructor
    · rw [String.toList_ofList, hText]
      exact List.sublist_cons_self _ _
    · rw [String.toList_ofList, hText]
      rfl
  · cases h

theorem thinned_newline : Thinned "" "\n" := ⟨List.nil_sublist _, rfl⟩

/-- Replacing an entry by one that is related to its partner keeps the lists related. -/
theorem forall₂_set {α β : Type} {R : α → β → Prop} {xs : List α} {ys : List β}
    (h : List.Forall₂ R xs ys) {i : Nat} {x : α} {y : β} (hAt : ys[i]? = some y) (hxy : R x y) :
    List.Forall₂ R (xs.set i x) ys := by
  induction h generalizing i with
  | nil => exact .nil
  | cons head tail ih =>
      cases i with
      | zero =>
          obtain rfl := Option.some.inj hAt
          exact .cons hxy tail
      | succ i => exact .cons head (ih hAt)

/-- One marker keeps the fragments as they were written, up to newlines. -/
theorem thinned_collapseAt {fragments out : List String} (h : List.Forall₂ Thinned out fragments)
    (i : Nat) : List.Forall₂ Thinned (collapseAt fragments i out) fragments := by
  unfold collapseAt
  split
  · rename_i left rest hLeft hRest
    obtain ⟨right, hRight, hDrop⟩ := Option.bind_eq_some_iff.mp hRest
    have hNext := forall₂_set h hRight (thinned_withoutNewline hDrop)
    split
    · dsimp only
      split
      · rename_i hLeading
        -- the first fragment is dropped only where it is a newline and nothing else
        obtain ⟨hFirst, rfl⟩ : isLeading i left = true ∧ left = "\n" := by simpa using hLeading
        obtain rfl : i = 0 := by simpa [isLeading] using hFirst
        exact forall₂_set hNext hLeft thinned_newline
      · exact hNext
    · exact h
  · exact h

/-- **Collapsing leaves out nothing but newlines**, fragment by fragment. -/
theorem thinned_collapse (fragments : List String) (slots : List Slot) :
    List.Forall₂ Thinned (collapse fragments slots) fragments := by
  have key : ∀ (slots : List Slot) (i : Nat) (out : List String),
      List.Forall₂ Thinned out fragments →
        List.Forall₂ Thinned (collapseFrom fragments i out slots) fragments := by
    intro slots
    induction slots with
    | nil =>
        intro i out h
        exact h
    | cons slot rest ih =>
        intro i out h
        apply ih
        by_cases hMarker : slot.kind.isMarker = true
        · rw [if_pos hMarker]
          exact thinned_collapseAt h i
        · rw [if_neg hMarker]
          exact h
  exact key slots 0 fragments (List.forall₂_same.mpr fun text _ => textRelation_thinned.refl text)

/-- The first fragment goes, being nothing but the start of the first marker's line. -/
example : collapse ["\n", "\nb\n", "\nc"] [.opening (.value .null), .closing] =
    ["", "b\n", "c"] := by
  decide

/-! ## Templates -/

open Rendering

/-- Rendering with marker lines collapsed is rendering the collapsed fragments. -/
theorem renderParts_collapse (fragments : List String) (slots : List Slot)
    (placeholder : String) :
    renderParts fragments slots ⟨true, placeholder⟩ =
      renderParts (collapse fragments slots) slots ⟨false, placeholder⟩ := by
  have hCount := length_collapse fragments slots
  rcases refused_or_exists_text fragments slots ⟨true, placeholder⟩ with
    ⟨e, hRefused⟩ | ⟨hLength, hBalanced, -⟩
  · rw [renderParts_of_refused hRefused, renderParts_of_refused (by rwa [hCount])]
  · obtain ⟨sections, hSections⟩ := (Section.exists_ofSlots_iff slots).mpr hBalanced
    rw [renderParts, renderParts, ofParts_eq_ok _ hLength hSections,
      ofParts_eq_ok _ (hCount.trans hLength) hSections]
    rfl

/-- The same template with its marker lines collapsed and as it was written. -/
theorem exists_texts_thinned {fragments : List String} {slots : List Slot} (placeholder : String)
    (hLength : fragments.length = slots.length + 1)
    (hBalanced : Section.Balanced (slots.map Slot.kind)) :
    ∃ collapsed plain, RendersAs fragments slots ⟨true, placeholder⟩ Scope.empty collapsed ∧
      RendersAs fragments slots ⟨false, placeholder⟩ Scope.empty plain ∧
      Thinned collapsed plain := by
  obtain ⟨sections, hSections⟩ := (Section.exists_ofSlots_iff slots).mpr hBalanced
  obtain ⟨r, hParts, hFragments, hSlots, hMap, hPlaceholder⟩ :=
    exists_ofParts ⟨true, placeholder⟩ hLength hSections
  obtain ⟨r', hParts', hFragments', hSlots', hMap', hPlaceholder'⟩ :=
    exists_ofParts ⟨false, placeholder⟩ hLength hSections
  have hLockstep : Lockstep Thinned r r' := by
    refine ⟨hSlots'.trans hSlots.symm, hMap'.trans hMap.symm,
      hPlaceholder'.trans hPlaceholder.symm, ?_⟩
    rw [hFragments, hFragments']
    exact thinned_collapse fragments slots
  obtain ⟨collapsed, plain, hCollapsed, hPlain, hThinned⟩ :=
    render_alike textRelation_thinned hLockstep Scope.empty
  exact ⟨collapsed, plain, ⟨r, hParts, hCollapsed⟩, ⟨r', hParts', hPlain⟩, hThinned⟩

/-- **Collapsing marker lines only removes newlines of the literal text.** With marker lines
collapsed a template is refused for the same reason as without, or it has a text in both cases;
then the one text is the other with some newlines left out. It is the text of the collapsed
fragments. -/
theorem collapsed_text_lacks_only_newlines (fragments : List String) (slots : List Slot)
    (placeholder : String) :
    ((∃ e, renderParts fragments slots ⟨true, placeholder⟩ = .error e ∧
          renderParts fragments slots ⟨false, placeholder⟩ = .error e) ∨
        ∃ collapsed plain, RendersAs fragments slots ⟨true, placeholder⟩ Scope.empty collapsed ∧
          RendersAs fragments slots ⟨false, placeholder⟩ Scope.empty plain ∧
          renderParts fragments slots ⟨true, placeholder⟩ = .ok collapsed ∧
          renderParts fragments slots ⟨false, placeholder⟩ = .ok plain ∧
          collapsed.toList.Sublist plain.toList ∧
          collapsed.toList.filter (· ≠ '\n') = plain.toList.filter (· ≠ '\n')) ∧
      renderParts fragments slots ⟨true, placeholder⟩ =
        renderParts (collapse fragments slots) slots ⟨false, placeholder⟩ := by
  constructor
  · rcases refused_or_exists_text fragments slots ⟨true, placeholder⟩ with
      ⟨e, hRefused⟩ | ⟨hLength, hBalanced, -⟩
    · exact .inl ⟨e, renderParts_of_refused hRefused, renderParts_of_refused hRefused⟩
    · obtain ⟨collapsed, plain, hCollapsed, hPlain, hThinned⟩ :=
        exists_texts_thinned placeholder hLength hBalanced
      exact .inr ⟨collapsed, plain, hCollapsed, hPlain, renderParts_of_rendersAs hCollapsed,
        renderParts_of_rendersAs hPlain, hThinned.sublist, hThinned.filter_eq⟩
  · exact renderParts_collapse fragments slots placeholder

end Stencil.MarkerLines
