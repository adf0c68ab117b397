import Mathlib.Data.List.Forall2
import Stencil.Proofs.Rendering.Meaning

/-!
# Renders in lockstep

Literal text is copied and never looked at. So two renderings that differ in nothing but their
fragments take the same steps: they visit the same slots in the same order, inside the same
frames, and have the same tasks left at every moment. Whatever relates each fragment of the one
to the fragment of the other, and is kept when texts are joined, relates the two texts at every
moment and in the end, however often each fragment has been copied by then.

## Main results

* `step_alike`, `reaches_alike` — one step and any number of steps keep two renders alike.
* `render_alike` — the texts of two renderings in lockstep are related.
-/

namespace Stencil

/-- A relation between texts that every text has to itself, and that is kept when texts are
joined. -/
structure TextRelation (R : String → String → Prop) : Prop where
  refl : ∀ text, R text text
  append : ∀ {a b c d}, R a b → R c d → R (a ++ c) (b ++ d)

namespace Rendering

/-- Two renderings that differ in nothing but their fragments, which are related one by one. -/
structure Lockstep (R : String → String → Prop) (r r' : Rendering) : Prop where
  slots_eq : r'.slots = r.slots
  sections_eq : r'.sections = r.sections
  placeholder_eq : r'.placeholder = r.placeholder
  fragments : List.Forall₂ R r.fragments r'.fragments

/-- Two renders that stand at the same place, with related texts. -/
structure State.Alike (R : String → String → Prop) (s s' : State) : Prop where
  tasks_eq : s'.tasks = s.tasks
  scope_eq : s'.scope = s.scope
  text : R s.text s'.text

variable {R : String → String → Prop} {r r' : Rendering} {s s' t : State}

namespace State.Alike

theorem push (h : s.Alike R s') (task : Task) : (s.push task).Alike R (s'.push task) where
  tasks_eq := congrArg (task :: ·) h.tasks_eq
  scope_eq := h.scope_eq
  text := h.text

theorem write (hR : TextRelation R) (h : s.Alike R s') {more more' : String}
    (hMore : R more more') : (s.write more).Alike R (s'.write more') where
  tasks_eq := h.tasks_eq
  scope_eq := h.scope_eq
  text := hR.append h.text hMore

end State.Alike

theorem Lockstep.exists_fragment (h : Lockstep R r r') {i : Nat} {fragment : String}
    (hFragment : r.fragments[i]? = some fragment) :
    ∃ fragment', r'.fragments[i]? = some fragment' ∧ R fragment fragment' := by
  obtain ⟨hLength, hEach⟩ := List.forall₂_iff_get.mp h.fragments
  obtain ⟨hLt, hGet⟩ := List.getElem?_eq_some_iff.mp hFragment
  have hLt' : i < r'.fragments.length := hLength ▸ hLt
  exact ⟨_, List.getElem?_eq_getElem hLt', hGet ▸ hEach i hLt hLt'⟩

/-! ## One step -/

theorem visit_alike (hR : TextRelation R) (h : Lockstep R r r') (hAlike : s.Alike R s')
    (start next stop : Nat) (slot : Slot) :
    (r.visit start next stop s slot).Alike R (r'.visit start next stop s' slot) := by
  cases slot with
  | direct value =>
      simp only [visit, h.placeholder_eq]
      exact (hAlike.write hR (hR.refl _)).push _
  | accessor a =>
      simp only [visit, h.placeholder_eq, hAlike.scope_eq]
      exact (hAlike.write hR (hR.refl _)).push _
  | opening driver =>
      simp only [visit, h.sections_eq, hAlike.scope_eq]
      cases r.sections.endOf next with
      | some close => exact (hAlike.push _).push _
      | none => exact hAlike.push _
  | closing => exact hAlike.push _

/-- **One step keeps two renders alike.** -/
theorem step_alike (hR : TextRelation R) (h : Lockstep R r r') (hAlike : s.Alike R s')
    (hStep : r.step s = some t) : ∃ t', r'.step s' = some t' ∧ t.Alike R t' := by
  obtain ⟨tasks, scope, text⟩ := s'
  obtain ⟨rfl, rfl, hText⟩ : tasks = s.tasks ∧ scope = s.scope ∧ R s.text text :=
    ⟨hAlike.tasks_eq, hAlike.scope_eq, hAlike.text⟩
  cases step_eq_some_iff.mp hStep with
  | @slot start next stop rest scope before fragment slot lt fragment_at slot_at =>
      obtain ⟨fragment', hFragment', hRelated⟩ := h.exists_fragment fragment_at
      have hWritten : State.Alike R ⟨rest, scope, before ++ fragment⟩
          ⟨rest, scope, text ++ fragment'⟩ := ⟨rfl, rfl, hR.append hText hRelated⟩
      rw [← h.slots_eq] at slot_at
      exact ⟨_, step_slot lt hFragment' slot_at, visit_alike hR h hWritten start next stop slot⟩
  | last pos le fragment_at =>
      obtain ⟨fragment', hFragment', hRelated⟩ := h.exists_fragment fragment_at
      exact ⟨_, step_last pos le hFragment', rfl, rfl, hR.append hText hRelated⟩
  | pass => exact ⟨_, rfl, rfl, rfl, hText⟩
  | enter => exact ⟨_, rfl, rfl, rfl, hText⟩
  | finish => exact ⟨_, rfl, rfl, rfl, hText⟩
  | leave => exact ⟨_, rfl, rfl, rfl, hText⟩

/-! ## A whole render -/

/-- **Any number of steps keep two renders alike.** -/
theorem reaches_alike (hR : TextRelation R) (h : Lockstep R r r') (hAlike : s.Alike R s')
    (hReaches : r.Reaches s t) : ∃ t', r'.Reaches s' t' ∧ t.Alike R t' := by
  induction hReaches generalizing s' with
  | refl => exact ⟨s', .refl, hAlike⟩
  | head first _ ih =>
      obtain ⟨u', hStep', hAlike'⟩ := step_alike hR h hAlike first
      obtain ⟨t', hReaches', hAlike''⟩ := ih hAlike'
      exact ⟨t', .head hStep' hReaches', hAlike''⟩

theorem Lockstep.start_alike (hR : TextRelation R) (h : Lockstep R r r') (scope : Scope) :
    (r.start scope).Alike R (r'.start scope) where
  tasks_eq := by
    unfold start
    rw [h.fragments.length_eq]
  scope_eq := rfl
  text := hR.refl ""

/-- **The texts of two renderings in lockstep are related.** -/
theorem render_alike (hR : TextRelation R) (h : Lockstep R r r') (scope : Scope) :
    ∃ text text', r.render scope = some text ∧ r'.render scope = some text' ∧ R text text' := by
  obtain ⟨tree, hFragments, hSlots⟩ := exists_tree r
  obtain ⟨t', hReaches, hAlike⟩ := reaches_alike hR h (h.start_alike hR scope)
    (reaches_end hFragments hSlots scope)
  obtain ⟨tasks, scope', text'⟩ := t'
  obtain rfl : tasks = [] := hAlike.tasks_eq
  refine ⟨_, text', render_eq_some hFragments hSlots scope, ?_, hAlike.text⟩
  rw [render, run_of_reaches hReaches, run_done]

end Rendering

end Stencil
