import Stencil.Proofs.Rendering.Refusal
import Stencil.Proofs.Template.Joining

/-!
# Where the placeholder stands

The placeholder is the text of null. A render writes it where a slot shows null and nowhere
else, and nothing that a render does afterwards looks at text that has been written. So the
render takes the same steps for every placeholder: it visits the same slots inside the same
frames, and shows the same values one after the other. What differs is the text alone, and only
in the places where null is shown.

## Main results

* `display_eq_intercalate` — what the placeholder does to the text of a value.
* `step_pieces`, `shows_pieces` — what one step and what a whole run writes, for all
  placeholders at once.
* `placeholder_keeps_its_places` — the text of a template, for all placeholders at once.
-/

namespace Stencil

/-! ## One value -/

namespace Value

def isNull : Value → Bool
  | .null => true
  | .bool _ => false
  | .number _ => false
  | .string _ => false
  | .array _ => false
  | .object _ => false

/-- The pieces of the text of a value between which the placeholder stands. -/
def displayPieces : Value → List String
  | .null => ["", ""]
  | v => [v.display ""]

/-- The placeholder stands between the pieces and in none of them. -/
theorem display_eq_intercalate (v : Value) (placeholder : String) :
    v.display placeholder = placeholder.intercalate v.displayPieces := by
  cases v with
  | null =>
      rw [displayPieces, String.intercalate_cons_cons, String.intercalate_singleton,
        String.empty_append, String.append_empty]
      rfl
  | _ => exact String.intercalate_singleton.symm

theorem length_displayPieces (v : Value) :
    v.displayPieces.length = [v].countP isNull + 1 := by
  cases v <;> rfl

end Value

/-- The value that a slot shows, if it shows one. -/
def Slot.shown : Slot → Scope → List Value
  | .direct v, _ => [v]
  | .opening _, _ => []
  | .closing, _ => []
  | .accessor a, scope => [a.evaluate scope]

namespace Rendering

/-! ## Runs that show values -/

/-- The value that the next step shows, if it shows one. -/
def shownNext (r : Rendering) (s : State) : List Value :=
  match s.tasks with
  | .range _ next stop :: _ =>
    if next + 1 < stop then (r.slots[next]?).elim [] fun slot => slot.shown s.scope else []
  | .body _ _ _ :: _ => []
  | .leave :: _ => []
  | [] => []

/-- A render gets from one state to another and shows `values` on the way, one after the
other. -/
inductive Shows (r : Rendering) : State → List Value → State → Prop
  | refl {s : State} : Shows r s [] s
  | head {s s' t : State} {values : List Value} (first : r.step s = some s')
      (rest : Shows r s' values t) : Shows r s (r.shownNext s ++ values) t

variable {r : Rendering} {s t : State} {values : List Value}

theorem Shows.reaches (h : r.Shows s values t) : r.Reaches s t := by
  induction h with
  | refl => exact .refl
  | head first _ ih => exact .head first ih

theorem exists_shows_of_reaches (h : r.Reaches s t) : ∃ values, r.Shows s values t := by
  induction h with
  | refl => exact ⟨[], .refl⟩
  | head first _ ih =>
      obtain ⟨values, hRest⟩ := ih
      exact ⟨_, .head first hRest⟩

/-! ## Other placeholders -/

/-- The same rendering with another placeholder. -/
def withPlaceholder (r : Rendering) (placeholder : String) : Rendering :=
  { r with placeholder := placeholder }

/-- Whatever the placeholder, a step leads from states like `s` to states like `t`, and writes
`pieces` with the placeholder between them. -/
def Writes (r : Rendering) (s : State) (pieces : List String) (t : State) : Prop :=
  ∀ placeholder text,
    (r.withPlaceholder placeholder).step ⟨s.tasks, s.scope, text⟩ =
      some ⟨t.tasks, t.scope, text ++ placeholder.intercalate pieces⟩

/-- A step that writes nothing, whatever the placeholder. -/
theorem writes_empty
    (h : ∀ placeholder text, (r.withPlaceholder placeholder).step ⟨s.tasks, s.scope, text⟩ =
      some ⟨t.tasks, t.scope, text⟩) : r.Writes s [""] t := by
  intro placeholder text
  rw [h, String.intercalate_singleton, String.append_empty]

/-- Visiting a slot writes the text of the value that the slot shows, if it shows one. -/
theorem visit_pieces (r : Rendering) (start next stop : Nat) (rest : List Task) (scope : Scope)
    (written : String) (slot : Slot) :
    ∃ pieces, pieces.length = (slot.shown scope).countP Value.isNull + 1 ∧
      ∀ placeholder text,
        (r.withPlaceholder placeholder).visit start next stop ⟨rest, scope, text⟩ slot =
          { r.visit start next stop ⟨rest, scope, written⟩ slot with
            text := text ++ placeholder.intercalate pieces } := by
  cases slot with
  | direct value =>
      refine ⟨value.displayPieces, value.length_displayPieces, fun placeholder text => ?_⟩
      rw [← Value.display_eq_intercalate]
      rfl
  | accessor a =>
      refine ⟨(a.evaluate scope).displayPieces, Value.length_displayPieces _,
        fun placeholder text => ?_⟩
      rw [← Value.display_eq_intercalate]
      rfl
  | opening driver =>
      refine ⟨[""], rfl, fun placeholder text => ?_⟩
      rw [String.intercalate_singleton, String.append_empty]
      -- where the section ends and which frames it opens are no matter of the placeholder
      simp only [visit, withPlaceholder]
      cases r.sections.endOf next <;> rfl
  | closing =>
      refine ⟨[""], rfl, fun placeholder text => ?_⟩
      rw [String.intercalate_singleton, String.append_empty]
      rfl

/-- **What one step writes**, for all placeholders at once: one piece more than it shows
nulls. -/
theorem step_pieces (h : r.step s = some t) :
    ∃ pieces, pieces.length = (r.shownNext s).countP Value.isNull + 1 ∧ r.Writes s pieces t := by
  cases step_eq_some_iff.mp h with
  | @slot start next stop rest scope text fragment slot lt fragment_at slot_at =>
      obtain ⟨pieces, hLength, hVisit⟩ :=
        visit_pieces r start next stop rest scope (text ++ fragment) slot
      have hShown : r.shownNext ⟨.range start next stop :: rest, scope, text⟩ =
          slot.shown scope := by
        simp only [shownNext, if_pos lt, slot_at]
        rfl
      refine ⟨joinEnds [fragment] pieces, ?_, fun placeholder more => ?_⟩
      · have hJoined := length_joinEnds (List.cons_ne_nil fragment [])
          (List.ne_nil_of_length_eq_add_one hLength)
        simp only [List.length_singleton] at hJoined
        rw [hShown]
        omega
      · rw [intercalate_joinEnds, String.intercalate_singleton, ← String.append_assoc]
        have hStep : (r.withPlaceholder placeholder).step
            ⟨.range start next stop :: rest, scope, more⟩ =
              some ((r.withPlaceholder placeholder).visit start next stop
                ⟨rest, scope, more ++ fragment⟩ slot) :=
          step_slot lt fragment_at slot_at
        exact hStep.trans (congrArg some (hVisit placeholder (more ++ fragment)))
  | @last start next stop rest scope text fragment pos le fragment_at =>
      have hShown : r.shownNext ⟨.range start next stop :: rest, scope, text⟩ = [] :=
        if_neg (Nat.not_lt_of_le le)
      refine ⟨[fragment], ?_, fun placeholder more => ?_⟩
      · rw [hShown]
        rfl
      · rw [String.intercalate_singleton]
        exact step_last pos le fragment_at
  | pass => exact ⟨[""], rfl, writes_empty fun _ _ => rfl⟩
  | enter => exact ⟨[""], rfl, writes_empty fun _ _ => rfl⟩
  | finish => exact ⟨[""], rfl, writes_empty fun _ _ => rfl⟩
  | leave => exact ⟨[""], rfl, writes_empty fun _ _ => rfl⟩

/-- **What a run writes**, for all placeholders at once: one piece more than it shows nulls.
Tasks, frames and the values that are shown are the same for all placeholders. -/
theorem shows_pieces (h : r.Shows s values t) :
    ∃ pieces, pieces.length = values.countP Value.isNull + 1 ∧
      ∀ placeholder text,
        (r.withPlaceholder placeholder).Shows ⟨s.tasks, s.scope, text⟩ values
          ⟨t.tasks, t.scope, text ++ placeholder.intercalate pieces⟩ := by
  induction h with
  | refl =>
      refine ⟨[""], rfl, fun placeholder text => ?_⟩
      rw [String.intercalate_singleton, String.append_empty]
      exact .refl
  | head first _ ih =>
      obtain ⟨pieces, hLength, hWrites⟩ := step_pieces first
      obtain ⟨more, hMore, hRest⟩ := ih
      refine ⟨joinEnds pieces more, ?_, fun placeholder text => ?_⟩
      · have hJoined := length_joinEnds (List.ne_nil_of_length_eq_add_one hLength)
          (List.ne_nil_of_length_eq_add_one hMore)
        rw [List.countP_append]
        omega
      · rw [intercalate_joinEnds, ← String.append_assoc]
        exact .head (hWrites placeholder text) (hRest placeholder _)

/-! ## Templates -/

variable {fragments : List String} {slots : List Slot} {options : RenderOptions}

theorem ofParts_withPlaceholder (h : ofParts fragments slots options = .ok r)
    (placeholder : String) :
    ofParts fragments slots { options with placeholder := placeholder } =
      .ok (r.withPlaceholder placeholder) := by
  by_cases hLength : fragments.length = slots.length + 1
  · cases hSlots : Section.ofSlots slots with
    | error e =>
        rw [ofParts_of_ofSlots_error hLength hSlots] at h
        cases h
    | ok sections =>
        rw [ofParts_eq_ok options hLength hSlots] at h
        rw [ofParts_eq_ok _ hLength hSlots, ← Except.ok.inj h]
        rfl
  · rw [ofParts_of_length_ne hLength] at h
    cases h

/-- **The placeholder stands in its own places and changes nothing else.** For all placeholders
the text of a template is made of the same pieces with the placeholder between them, as often as
the render shows null. The values that it shows are the same, and at every moment so are the
tasks that are left and the frames around. -/
theorem placeholder_keeps_its_places {text : String}
    (hText : renderParts fragments slots options = .ok text) :
    (∃ (values : List Value) (pieces : List String),
        pieces.length = values.countP Value.isNull + 1 ∧
          ∀ placeholder,
            ∃ r, ofParts fragments slots { options with placeholder := placeholder } = .ok r ∧
              r.Shows (r.start Scope.empty) values
                ⟨[], Scope.empty, placeholder.intercalate pieces⟩ ∧
              renderParts fragments slots { options with placeholder := placeholder } =
                .ok (placeholder.intercalate pieces)) ∧
      ∀ placeholder other r r',
        ofParts fragments slots { options with placeholder := placeholder } = .ok r →
          ofParts fragments slots { options with placeholder := other } = .ok r' →
            ∀ values s, r.Shows (r.start Scope.empty) values s →
              ∃ text', r'.Shows (r'.start Scope.empty) values ⟨s.tasks, s.scope, text'⟩ := by
  have hShape : fragments.length = slots.length + 1 ∧ Section.Balanced (slots.map Slot.kind) :=
    renderParts_eq_ok_iff.mp ⟨text, hText⟩
  obtain ⟨sections, hSections⟩ := (Section.exists_ofSlots_iff slots).mpr hShape.2
  obtain ⟨r, hParts, -⟩ := exists_ofParts options hShape.1 hSections
  constructor
  · obtain ⟨tree, hFragments, hSlots⟩ := exists_tree r
    obtain ⟨values, hShows⟩ := exists_shows_of_reaches (reaches_end hFragments hSlots Scope.empty)
    obtain ⟨pieces, hLength, hWrites⟩ := shows_pieces hShows
    refine ⟨values, pieces, hLength, fun placeholder => ?_⟩
    have hEnd := hWrites placeholder ""
    rw [String.empty_append] at hEnd
    have hOther := ofParts_withPlaceholder hParts placeholder
    refine ⟨r.withPlaceholder placeholder, hOther, hEnd, renderParts_eq_ok hOther ?_⟩
    exact (run_of_reaches hEnd.reaches).trans (run_done _ _ _)
  · intro placeholder other r₁ r₂ hFirst hSecond values s hShows
    obtain rfl := Except.ok.inj ((ofParts_withPlaceholder hFirst other).symm.trans hSecond)
    obtain ⟨pieces, -, hWrites⟩ := shows_pieces hShows
    exact ⟨_, hWrites other ""⟩

/-- A loop over null and a list that holds null, and a null behind it. -/
def nullsInLoop : Tree :=
  .block "<" (.value (.array [.null, .array [.null]])) (.accessor "" .item (.text ","))
    (.direct "|" .null (.text ">"))

/-- Of the three nulls in the data of `nullsInLoop` two are shown by a slot. -/
theorem placeholder_keeps_its_places_nullsInLoop :
    renderParts nullsInLoop.fragments nullsInLoop.slots ⟨false, "?"⟩ = .ok "<?,[null],|?>" ∧
      ∃ (values : List Value) (pieces : List String),
        pieces.length = values.countP Value.isNull + 1 ∧
          ∀ placeholder,
            renderParts nullsInLoop.fragments nullsInLoop.slots ⟨false, placeholder⟩ =
              .ok (placeholder.intercalate pieces) := by
  obtain ⟨-, -, -, hText⟩ := renderParts_tree nullsInLoop ⟨false, "?"⟩ rfl
  refine ⟨hText, ?_⟩
  obtain ⟨values, pieces, hLength, hPieces⟩ := (placeholder_keeps_its_places hText).1
  refine ⟨values, pieces, hLength, fun placeholder => ?_⟩
  obtain ⟨-, -, -, hOther⟩ := hPieces placeholder
  exact hOther

end Rendering

end Stencil
