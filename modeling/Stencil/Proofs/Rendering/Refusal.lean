import Stencil.Proofs.Rendering.Meaning
import Stencil.Proofs.Section.Unmatched

/-!
# When a template is refused

Parts are refused for their shape alone: for the number of fragments, and for what the slots
do. Which values are shown, what the accessors find, what drives the sections, the literal text
and the options make no difference. Parts that are not refused are rendered to their end.

The wrong number of fragments goes before everything else. After that it is the marker that is
to blame for the sections not pairing up.

## Main results

* `renderParts_eq_error_iff`, `renderParts_eq_ok_iff` — when parts are refused and why, and when
  they have a text.
* `fromParts?_bind_renderWith` — building a template first refuses the same parts.
* `refused_for_shape_alone` — all of it, for any parts and options.
-/

namespace Stencil.Rendering

open Section

/-- Why `count` fragments and slots of the given kinds are no template. -/
inductive Refused (count : Nat) (kinds : List SlotKind) : TemplateError → Prop
  | arity (mismatch : count ≠ kinds.length + 1) :
      Refused count kinds (.arityMismatch count kinds.length)
  | marker {e : TemplateError} (fits : count = kinds.length + 1) (unmatched : Unmatched kinds e) :
      Refused count kinds e

variable {fragments : List String} {slots : List Slot} {options : RenderOptions}

/-! ## Refusing -/

theorem ofParts_of_length_ne (hLength : fragments.length ≠ slots.length + 1) :
    ofParts fragments slots options = .error (.arityMismatch fragments.length slots.length) := by
  rw [ofParts, dif_neg hLength]

theorem ofParts_of_ofSlots_error {e : TemplateError}
    (hLength : fragments.length = slots.length + 1) (hSlots : ofSlots slots = .error e) :
    ofParts fragments slots options = .error e := by
  rw [ofParts, dif_pos hLength]
  split
  · rename_i e' hFound
    exact congrArg Except.error (Except.error.inj (hFound.symm.trans hSlots))
  · rename_i sections hFound
    rw [hSlots] at hFound
    cases hFound

theorem renderParts_of_ofParts_error {e : TemplateError}
    (h : ofParts fragments slots options = .error e) :
    renderParts fragments slots options = .error e := by
  rw [renderParts, h]
  rfl

/-- Parts that agree in number and whose markers are balanced have a text. -/
theorem exists_text_of_balanced (options : RenderOptions)
    (hLength : fragments.length = slots.length + 1) (h : Balanced (slots.map Slot.kind)) :
    ∃ text, RendersAs fragments slots options Scope.empty text := by
  obtain ⟨sections, hSections⟩ := (exists_ofSlots_iff slots).mpr h
  obtain ⟨r, hParts, -⟩ := exists_ofParts options hLength hSections
  exact ⟨r.toText, r, hParts, toText_eq_iff.mp rfl⟩

theorem renderParts_of_refused {e : TemplateError}
    (h : Refused fragments.length (slots.map Slot.kind) e) :
    renderParts fragments slots options = .error e := by
  apply renderParts_of_ofParts_error
  cases h with
  | arity mismatch =>
      rw [List.length_map] at mismatch ⊢
      exact ofParts_of_length_ne mismatch
  | marker fits unmatched =>
      rw [List.length_map] at fits
      exact ofParts_of_ofSlots_error fits (ofSlots_eq_error_iff.mpr unmatched)

/-! ## When and why -/

/-- Parts are refused or have a text, and it is their shape that decides. -/
theorem refused_or_exists_text (fragments : List String) (slots : List Slot)
    (options : RenderOptions) :
    (∃ e, Refused fragments.length (slots.map Slot.kind) e) ∨
      fragments.length = slots.length + 1 ∧ Balanced (slots.map Slot.kind) ∧
        ∃ text, RendersAs fragments slots options Scope.empty text := by
  by_cases hLength : fragments.length = slots.length + 1
  · cases hSlots : ofSlots slots with
    | error e =>
        have hUnmatched := ofSlots_eq_error_iff.mp hSlots
        exact .inl ⟨e, .marker (by rwa [List.length_map]) hUnmatched⟩
    | ok sections =>
        have hBalanced := balanced_of_ofSlots hSlots
        exact .inr ⟨hLength, hBalanced, exists_text_of_balanced options hLength hBalanced⟩
  · exact .inl ⟨_, .arity (by rwa [List.length_map])⟩

/-- **Parts are refused exactly for the fault of their shape.** -/
theorem renderParts_eq_error_iff {e : TemplateError} :
    renderParts fragments slots options = .error e ↔
      Refused fragments.length (slots.map Slot.kind) e := by
  constructor
  · intro hError
    rcases refused_or_exists_text fragments slots options with
      ⟨e', hRefused⟩ | ⟨-, -, text, hText⟩
    · have hError' : renderParts fragments slots options = .error e' :=
        renderParts_of_refused hRefused
      rwa [Except.error.inj (hError.symm.trans hError')]
    · rw [renderParts_of_rendersAs hText] at hError
      cases hError
  · exact renderParts_of_refused

theorem renderParts_eq_ok_iff :
    (∃ text, renderParts fragments slots options = .ok text) ↔
      fragments.length = slots.length + 1 ∧ Balanced (slots.map Slot.kind) := by
  constructor
  · intro hOk
    obtain ⟨text, hText⟩ := hOk
    rcases refused_or_exists_text fragments slots options with
      ⟨e, hRefused⟩ | ⟨hLength, hBalanced, -⟩
    · rw [renderParts_of_refused hRefused] at hText
      cases hText
    · exact ⟨hLength, hBalanced⟩
  · intro h
    obtain ⟨text, hText⟩ := exists_text_of_balanced options h.1 h.2
    exact ⟨text, renderParts_of_rendersAs hText⟩

/-- Parts that are built into a template first are refused in the same way. -/
theorem fromParts?_bind_renderWith (fragments : List String) (slots : List Slot)
    (options : RenderOptions) :
    ((Template.fromParts? fragments slots).bind fun t => t.renderWith options) =
      renderParts fragments slots options := by
  by_cases hLength : fragments.length = slots.length + 1
  · rw [Template.fromParts?, dif_pos hLength]
    rfl
  · rw [Template.fromParts?, dif_neg hLength,
      renderParts_of_ofParts_error (ofParts_of_length_ne hLength)]
    rfl

/-- **Whether and why parts are refused depends on their shape alone.** They are refused for the
number of fragments, else for the first end that leaves more ends than starts, else for the last
start that is never closed. Otherwise they have a text, and it is the one that their render ends
with. Two lists of parts of the same shape are both rendered, or both refused for the same
reason. -/
theorem refused_for_shape_alone (fragments : List String) (slots : List Slot)
    (options : RenderOptions) :
    (∀ e, renderParts fragments slots options = .error e ↔
        Refused fragments.length (slots.map Slot.kind) e) ∧
      ((∃ text, renderParts fragments slots options = .ok text) ↔
        fragments.length = slots.length + 1 ∧ Balanced (slots.map Slot.kind)) ∧
      (∀ text, renderParts fragments slots options = .ok text ↔
        RendersAs fragments slots options Scope.empty text) ∧
      ((Template.fromParts? fragments slots).bind fun t => t.renderWith options) =
        renderParts fragments slots options ∧
      ∀ (others : List String) (otherSlots : List Slot) (otherOptions : RenderOptions),
        others.length = fragments.length →
          otherSlots.map Slot.kind = slots.map Slot.kind →
            (∃ text other, RendersAs fragments slots options Scope.empty text ∧
                RendersAs others otherSlots otherOptions Scope.empty other) ∨
              ∃ e, renderParts fragments slots options = .error e ∧
                renderParts others otherSlots otherOptions = .error e := by
  refine ⟨fun e => renderParts_eq_error_iff, renderParts_eq_ok_iff,
    fun text => renderParts_eq_ok_iff_rendersAs,
    fromParts?_bind_renderWith fragments slots options, ?_⟩
  intro others otherSlots otherOptions hCount hKinds
  have hSlots : otherSlots.length = slots.length := by
    rw [← List.length_map (f := Slot.kind), hKinds, List.length_map]
  rcases refused_or_exists_text fragments slots options with
    ⟨e, hRefused⟩ | ⟨hLength, hBalanced, text, hText⟩
  · refine .inr ⟨e, renderParts_of_refused hRefused, renderParts_of_refused ?_⟩
    rwa [hCount, hKinds]
  · rw [← hKinds] at hBalanced
    obtain ⟨other, hOther⟩ := exists_text_of_balanced otherOptions
      (show others.length = otherSlots.length + 1 by omega) hBalanced
    exact .inl ⟨text, other, hText, hOther⟩

/-- The outer of two starts is left over, whatever is shown and whatever the options. -/
theorem refused_for_shape_alone_leftOver :
    ["", "a", "", "\n"].length = ["x", "", "\n", "y"].length ∧
      [Slot.opening (.accessor .item), .opening (.value .null), .closing].map Slot.kind =
        [Slot.opening (.value (.bool true)), .opening (.accessor .source), .closing].map
          Slot.kind ∧
      renderParts ["", "a", "", "\n"]
          [.opening (.accessor .item), .opening (.value .null), .closing] ⟨true, "?"⟩ =
        .error (.unmatchedStart 0) := by
  refine ⟨rfl, rfl, ?_⟩
  have hPlain : renderParts ["x", "", "\n", "y"]
      [.opening (.value (.bool true)), .opening (.accessor .source), .closing] {} =
        .error (.unmatchedStart 0) := rfl
  rcases (refused_for_shape_alone ["x", "", "\n", "y"]
    [.opening (.value (.bool true)), .opening (.accessor .source), .closing] {}).2.2.2.2
    ["", "a", "", "\n"] [.opening (.accessor .item), .opening (.value .null), .closing]
    ⟨true, "?"⟩ rfl rfl with ⟨text, other, hText, -⟩ | ⟨e, hError, hOther⟩
  · rw [renderParts_of_rendersAs hText] at hPlain
    cases hPlain
  · rw [hOther, Except.error.inj (hError.symm.trans hPlain)]

end Stencil.Rendering
