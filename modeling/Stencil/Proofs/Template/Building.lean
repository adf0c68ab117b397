import Stencil.Proofs.Rendering.Refusal
import Stencil.Proofs.Template.Joining

/-!
# What a builder builds

A template is built by calls: some append text, some append a slot, and some only ask for the
text of what has been built so far. Whatever the calls and their order, the slots are those that
were added, and between two slots stands the text that was given between them, all of it in one
fragment. Appending a call to others joins what it gives to what they gave, at the end: that is
what one call preserves, and with it any number of calls.

## Main results

* `slots_apply`, `fragments_apply` — what one call does.
* `slots_foldl`, `fragments_foldl` — what any number of calls do.
* `exists_build` — every template is built by some calls.
* `build_keeps_calls` — slots and fragments of what is built, and what follows from them.
-/

namespace Stencil.Template

/-- A call on a template. -/
inductive Call
  | text (text : String)
  | slot (slot : Slot)
  | openSection (driver : Driver)
  | closeSection
  | accessor (a : Accessor)
  | value (v : Value)
  | render
  | renderWith (options : RenderOptions)

namespace Call

/-- The template after a call. -/
def apply (t : Template) : Call → Template
  | .text more => t.text more
  | .slot added => t.slot added
  | .openSection driver => t.openSection driver
  | .closeSection => t.closeSection
  | .accessor a => t.accessor a
  | .value v => t.value v
  | .render => t
  | .renderWith _ => t

/-- What a call answers, if it asks for something. -/
def answer? (t : Template) : Call → Option (Except TemplateError String)
  | .text _ => none
  | .slot _ => none
  | .openSection _ => none
  | .closeSection => none
  | .accessor _ => none
  | .value _ => none
  | .render => some t.render
  | .renderWith options => some (t.renderWith options)

/-- The slot that a call adds, if it adds one. -/
def slot? : Call → Option Slot
  | .text _ => none
  | .slot added => some added
  | .openSection driver => some (.opening driver)
  | .closeSection => some .closing
  | .accessor a => some (.accessor a)
  | .value v => some (.direct v)
  | .render => none
  | .renderWith _ => none

/-- The text that a call gives, if it gives one. -/
def text? : Call → Option String
  | .text more => some more
  | .slot _ => none
  | .openSection _ => none
  | .closeSection => none
  | .accessor _ => none
  | .value _ => none
  | .render => none
  | .renderWith _ => none

/-- What a call adds at the end of the fragments: its text, or the end of one fragment and the
start of the next if it adds a slot. -/
def given : Call → List String
  | .text more => [more]
  | .slot _ => ["", ""]
  | .openSection _ => ["", ""]
  | .closeSection => ["", ""]
  | .accessor _ => ["", ""]
  | .value _ => ["", ""]
  | .render => [""]
  | .renderWith _ => [""]

end Call

/-- What some calls build, one after the other. -/
def build (first : String) (calls : List Call) : Template :=
  calls.foldl Call.apply (Template.new first)

/-- The texts that some calls give: all that are given between two slots, in one. -/
def written (calls : List Call) : List String :=
  (calls.splitOnP fun call => call.slot?.isSome).map fun stretch =>
    String.join (stretch.filterMap Call.text?)

/-! ## One call -/

theorem fragments_ne_nil (t : Template) : t.fragments ≠ [] :=
  List.ne_nil_of_length_eq_add_one t.fragments_length

theorem appendToLast_eq_joinEnds {texts : List String} (h : texts ≠ []) (text : String) :
    appendToLast text texts = joinEnds texts [text] := by
  induction texts with
  | nil => exact absurd rfl h
  | cons first rest ih =>
      cases rest with
      | nil => rfl
      | cons next rest =>
          have hNext : next :: rest ≠ [] := List.cons_ne_nil next rest
          rw [joinEnds_cons first hNext, ← ih hNext, appendToLast]

theorem slots_apply (t : Template) (call : Call) :
    (call.apply t).slots = t.slots ++ call.slot?.toList := by
  cases call with
  | text more => exact (List.append_nil t.slots).symm
  | render => exact (List.append_nil t.slots).symm
  | renderWith options => exact (List.append_nil t.slots).symm
  | _ => rfl

/-- **One call joins what it gives to the end of the fragments.** -/
theorem fragments_apply (t : Template) (call : Call) :
    (call.apply t).fragments = joinEnds t.fragments call.given := by
  have h := t.fragments_ne_nil
  have hSilent : t.fragments = joinEnds t.fragments [""] := by
    rw [joinEnds_empty_cons h, List.append_nil]
  cases call with
  | text more => exact appendToLast_eq_joinEnds h more
  | render => exact hSilent
  | renderWith options => exact hSilent
  | _ => exact (joinEnds_empty_cons h [""]).symm

/-! ## The texts between the slots -/

theorem written_ne_nil (calls : List Call) : written calls ≠ [] := by
  intro hNil
  exact List.splitOnP_ne_nil _ calls (List.map_eq_nil_iff.mp hNil)

theorem written_cons_of_slot {call : Call} (h : call.slot?.isSome = true) (calls : List Call) :
    written (call :: calls) = "" :: written calls := by
  unfold written
  rw [List.splitOnP_cons_eq_if_modifyHead, if_pos h, List.map_cons, List.filterMap_nil,
    String.join_nil]

theorem written_cons_of_no_slot {call : Call} (h : call.slot? = none) (calls : List Call) :
    written (call :: calls) = joinEnds [String.join call.text?.toList] (written calls) := by
  unfold written
  rw [List.splitOnP_cons_eq_if_modifyHead, if_neg (by simp [h])]
  cases hStretches : calls.splitOnP fun call => call.slot?.isSome with
  | nil => exact absurd hStretches (List.splitOnP_ne_nil _ calls)
  | cons stretch stretches =>
      rw [List.modifyHead_cons, List.map_cons, List.map_cons, joinEnds, ← String.join_append]
      cases hText : call.text? <;> simp [hText]

/-- What some calls give starts with what the first of them gives. -/
theorem written_cons (call : Call) (calls : List Call) :
    written (call :: calls) = joinEnds call.given (written calls) := by
  have hEmpty := joinEnds_singleton_empty (written_ne_nil calls)
  have hSlot : joinEnds ["", ""] (written calls) = "" :: written calls := by
    rw [joinEnds_cons "" (List.cons_ne_nil "" []), hEmpty]
  cases call with
  | text more =>
      have hText : String.join [more] = more := by simp
      exact (written_cons_of_no_slot rfl calls).trans (congrArg (joinEnds [·] _) hText)
  | render => exact written_cons_of_no_slot rfl calls
  | renderWith options => exact written_cons_of_no_slot rfl calls
  | _ => exact (written_cons_of_slot rfl calls).trans hSlot.symm

/-! ## Any number of calls -/

theorem slots_foldl (calls : List Call) (t : Template) :
    (calls.foldl Call.apply t).slots = t.slots ++ calls.filterMap Call.slot? := by
  induction calls generalizing t with
  | nil => exact (List.append_nil t.slots).symm
  | cons call calls ih =>
      rw [List.foldl_cons, ih, slots_apply, List.append_assoc, List.filterMap_cons]
      cases call.slot? <;> rfl

/-- **Any number of calls join what they give to the end of the fragments.** -/
theorem fragments_foldl (calls : List Call) (t : Template) :
    (calls.foldl Call.apply t).fragments = joinEnds t.fragments (written calls) := by
  induction calls generalizing t with
  | nil =>
      show t.fragments = joinEnds t.fragments [""]
      rw [joinEnds_empty_cons t.fragments_ne_nil, List.append_nil]
  | cons call calls ih =>
      rw [List.foldl_cons, ih, fragments_apply, joinEnds_assoc, ← written_cons]

variable (first : String) (calls : List Call)

theorem slots_build : (build first calls).slots = calls.filterMap Call.slot? :=
  slots_foldl calls (Template.new first)

/-- The first fragment counts as given before all calls. -/
theorem fragments_build : (build first calls).fragments = written (.text first :: calls) := by
  rw [written_cons]
  exact fragments_foldl calls (Template.new first)

theorem eq_of_parts {t other : Template} (hFragments : t.fragments = other.fragments)
    (hSlots : t.slots = other.slots) : t = other := by
  cases t
  cases other
  cases hFragments
  cases hSlots
  rfl

/-- Calls build the same if they add the same slots and give the same texts between them. -/
theorem build_eq_iff (other : String) (others : List Call) :
    build first calls = build other others ↔
      calls.filterMap Call.slot? = others.filterMap Call.slot? ∧
        written (.text first :: calls) = written (.text other :: others) := by
  rw [← slots_build first, ← slots_build other, ← fragments_build, ← fragments_build]
  constructor
  · intro hEq
    rw [hEq]
    exact ⟨rfl, rfl⟩
  · intro hParts
    exact eq_of_parts hParts.2 hParts.1

/-- Some calls give any texts with any slots between them. -/
theorem exists_calls (slots : List Slot) (fragments : List String)
    (hLength : fragments.length = slots.length + 1) :
    ∃ first calls, calls.filterMap Call.slot? = slots ∧
      written (.text first :: calls) = fragments := by
  induction slots generalizing fragments with
  | nil =>
      obtain ⟨first, rfl⟩ : ∃ first, fragments = [first] :=
        List.length_eq_one_iff.mp hLength
      refine ⟨first, [], rfl, ?_⟩
      rw [written_cons]
      exact joinEnds_empty_cons (List.cons_ne_nil first []) []
  | cons slot slots ih =>
      cases fragments with
      | nil => cases hLength
      | cons first fragments =>
          obtain ⟨next, calls, hSlots, hFragments⟩ := ih fragments (Nat.succ.inj hLength)
          refine ⟨first, .slot slot :: .text next :: calls, ?_, ?_⟩
          · exact congrArg (slot :: ·) hSlots
          · rw [written_cons, written_cons_of_slot rfl, hFragments]
            exact joinEnds_empty_cons (List.cons_ne_nil first []) fragments

/-- **Every template is built by some calls.** -/
theorem exists_build (t : Template) : ∃ first calls, build first calls = t := by
  obtain ⟨first, calls, hSlots, hFragments⟩ := exists_calls t.slots t.fragments t.fragments_length
  refine ⟨first, calls, eq_of_parts ?_ ?_⟩
  · rw [fragments_build, hFragments]
  · rw [slots_build, hSlots]

/-! ## What is built -/

theorem renderWith_ne_arityMismatch (t : Template) (options : RenderOptions) (m n : Nat) :
    t.renderWith options ≠ .error (.arityMismatch m n) := by
  intro hError
  have hRefused : Rendering.Refused t.fragments.length (t.slots.map Slot.kind)
      (.arityMismatch m n) := Rendering.renderParts_eq_error_iff.mp hError
  cases hRefused with
  | arity mismatch =>
      rw [List.length_map] at mismatch
      exact mismatch t.fragments_length
  | marker fits unmatched => cases unmatched

/-- Parts that are accepted are kept. -/
theorem eq_parts_of_fromParts? {fragments : List String} {slots : List Slot} {t : Template}
    (hParts : fromParts? fragments slots = .ok t) : t.fragments = fragments ∧ t.slots = slots := by
  by_cases hLength : fragments.length = slots.length + 1
  · rw [fromParts?, dif_pos hLength] at hParts
    cases hParts
    exact ⟨rfl, rfl⟩
  · rw [fromParts?, dif_neg hLength] at hParts
    cases hParts

theorem answer?_ne_arityMismatch (t : Template) (call : Call) (m n : Nat) :
    call.answer? t ≠ some (.error (.arityMismatch m n)) := by
  intro hAnswer
  cases call with
  | render => exact renderWith_ne_arityMismatch t {} m n (Option.some.inj hAnswer)
  | renderWith options => exact renderWith_ne_arityMismatch t options m n (Option.some.inj hAnswer)
  | _ => cases hAnswer

/-- **A builder keeps what its calls give it.** After any calls the slots are those that were
added, there is one fragment more, and the fragments are the texts given before, between and
behind the slots. So the number of fragments is never a reason to refuse what is built, calls
that give the same texts between the same slots build the same, what is built is given back by
its parts, and all that can be given by its parts can be built. -/
theorem build_keeps_calls :
    ((build first calls).slots = calls.filterMap Call.slot? ∧
        (build first calls).fragments.length = (build first calls).slots.length + 1 ∧
        (build first calls).fragments = written (.text first :: calls)) ∧
      (∀ (call : Call) (m n : Nat),
        call.answer? (build first calls) ≠ some (.error (.arityMismatch m n))) ∧
      (∀ (other : String) (others : List Call),
        build first calls = build other others ↔
          calls.filterMap Call.slot? = others.filterMap Call.slot? ∧
            written (.text first :: calls) = written (.text other :: others)) ∧
      (∃ copy, fromParts? (build first calls).fragments (build first calls).slots = .ok copy ∧
        ∀ options, copy.renderWith options = (build first calls).renderWith options) ∧
      ∀ (fragments : List String) (slots : List Slot) (t : Template),
        fromParts? fragments slots = .ok t →
          ∃ other others, build other others = t ∧ t.fragments = fragments ∧ t.slots = slots := by
  refine ⟨⟨slots_build first calls, (build first calls).fragments_length,
    fragments_build first calls⟩, answer?_ne_arityMismatch (build first calls),
    build_eq_iff first calls, ⟨build first calls, fromParts?_parts _, fun _ => rfl⟩, ?_⟩
  intro fragments slots t hParts
  obtain ⟨other, others, hBuilt⟩ := exists_build t
  have hKept := eq_parts_of_fromParts? hParts
  exact ⟨other, others, hBuilt, hKept⟩

/-- Text given in two pieces around a call for the text so far is one fragment. -/
theorem build_keeps_calls_splitText :
    let calls : List Call := [.text "b", .closeSection, .text "c", .render, .text "d"]
    let closing : Template := ⟨["ab", "cd"], [.closing], rfl⟩
    (build "a" calls).slots = [.closing] ∧ (build "a" calls).fragments = ["ab", "cd"] ∧
      build "a" calls = build "ab" [.closeSection, .text "cd"] ∧
      fromParts? ["ab", "cd"] [.closing] = .ok closing ∧
      ∃ other others, build other others = closing := by
  intro calls closing
  obtain ⟨⟨hSlots, -, hFragments⟩, -, hSame, -, hBuilt⟩ := build_keeps_calls "a" calls
  have hClosing : fromParts? ["ab", "cd"] [.closing] = .ok closing := rfl
  obtain ⟨other, others, hOther, -⟩ := hBuilt _ _ closing hClosing
  have hWritten : written (.text "a" :: calls) = ["ab", "cd"] := by decide
  have hOnce : written (.text "a" :: calls) =
      written [.text "ab", .closeSection, .text "cd"] := by decide
  exact ⟨hSlots, hFragments.trans hWritten, (hSame "ab" _).mpr ⟨rfl, hOnce⟩, hClosing, other,
    others, hOther⟩

end Stencil.Template
