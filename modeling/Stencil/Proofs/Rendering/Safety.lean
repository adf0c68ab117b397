import Stencil.Proofs.Rendering.Invariant
import Stencil.Proofs.Rendering.Meaning

/-!
# Rendering cannot go wrong

Nothing in the machine keeps a walk inside its range or stops it from going round in circles.
That it never happens follows from where a render can stand: each walk is over a stretch whose
sections pair up inside it, and the walks get shorter inwards.

## Main results

* `Standing.stretch_of_mem`, `Standing.widths` — all walks that a render is in the middle of
  are over stretches, and they get shorter inwards.
* `safe_of_standing` — what never goes wrong.
* `render_never_fails` — a template with matching sections is rendered safely to its end.
-/

namespace Stencil.Rendering

open Section

/-- The walk over the range from `start` to `stop` is about to visit slot `next`; `rest` is
left to be done behind it. -/
structure State.Visits (s : State) (start next stop : Nat) (rest : List Task) : Prop where
  tasks_eq : s.tasks = .range start next stop :: rest
  lt : next + 1 < stop

/-- The number of fragments of the range that a walk is over. -/
def Task.width? : Task → Option Nat
  | .range start _ stop => some (stop - start)
  | .body _ _ _ => none
  | .leave => none

/-- What cannot go wrong in the next step of a render. -/
structure Safe (r : Rendering) (s : State) : Prop where
  /-- Each walk is over a range of fragments that exist, and stands inside it. -/
  bounds : ∀ start next stop, .range start next stop ∈ s.tasks →
    start ≤ next ∧ next < stop ∧ stop ≤ r.fragments.length
  /-- Each walk is over a shorter range than the one that it was started from. -/
  shorter : (s.tasks.filterMap Task.width?).Pairwise (· < ·)
  /-- The last fragment of a range exists. -/
  last_exists : ∀ start next stop rest, s.tasks = .range start next stop :: rest →
    0 < stop ∧ stop - 1 < r.fragments.length
  /-- A slot that is visited and the fragment in front of it exist. -/
  slot_exists : ∀ start next stop rest, s.Visits start next stop rest →
    next < r.fragments.length ∧ next < r.slots.length
  /-- A section that starts in a range ends in the range. -/
  section_ends : ∀ start next stop rest driver, s.Visits start next stop rest →
    r.slots[next]? = some (.opening driver) →
      ∃ close, r.sections.endOf next = some close ∧ next < close ∧ close < stop - 1
  /-- No section end is visited. -/
  no_end : ∀ start next stop rest, s.Visits start next stop rest →
    r.slots[next]? ≠ some .closing
  /-- Behind a slot, or behind the section that starts there, the walk has moved on in its
  range. -/
  advances : ∀ start next stop rest s', s.Visits start next stop rest → r.step s = some s' →
    ∃ later above, next < later ∧ later < stop ∧
      s'.tasks = above ++ .range start later stop :: rest
  /-- There is a next step as long as tasks are left. -/
  progress : s.tasks ≠ [] → ∃ s', r.step s = some s'

variable {r : Rendering} {base : Scope}

theorem Walk.stretch_of_mem {start next stop : Nat} {tasks : List Task} {scope : Scope}
    (h : Walk r base start next stop tasks scope) {a b c : Nat}
    (hMem : Task.range a b c ∈ .range start next stop :: tasks) : r.Stretch a b c := by
  induction h with
  | outermost hStretch =>
      obtain ⟨rfl, rfl, rfl⟩ := Task.range.inj (List.mem_singleton.mp hMem)
      exact hStretch
  | inner outer block _ hStretch ih =>
      simp only [List.mem_cons, reduceCtorEq, false_or, Task.range.injEq] at hMem
      rcases hMem with ⟨rfl, rfl, rfl⟩ | ⟨rfl, rfl, rfl⟩ | hMem
      · exact hStretch
      · exact (outer.behind block).stretch
      · exact ih (List.mem_cons_of_mem _ hMem)

/-- The walks get shorter inwards. -/
theorem Walk.widths {start next stop : Nat} {tasks : List Task} {scope : Scope}
    (h : Walk r base start next stop tasks scope) :
    ((stop - start) :: tasks.filterMap Task.width?).Pairwise (· < ·) := by
  induction h with
  | outermost _ => simp
  | @inner start s e stop _ tasks _ _ _ _ outer block _ _ ih =>
      have hStart := outer.stretch.start_le
      have hLt := block.section_ends.lt
      have hEnd := block.end_lt
      have hShorter : e + 1 - (s + 1) < stop - start := by omega
      simp only [List.filterMap_cons, Task.width?]
      apply List.pairwise_cons.mpr
      constructor
      · intro width hMem
        rcases List.mem_cons.mp hMem with rfl | hOuter
        · exact hShorter
        · exact Nat.lt_trans hShorter ((List.pairwise_cons.mp ih).1 width hOuter)
      · exact ih

theorem Standing.stretch_of_mem {s : State} (h : Standing r base s) {a b c : Nat}
    (hMem : Task.range a b c ∈ s.tasks) : r.Stretch a b c := by
  cases h with
  | walking walk => exact walk.stretch_of_mem hMem
  | expanding outer block _ => exact (outer.behind block).stretch_of_mem (by simpa using hMem)
  | leaving outer block _ => exact (outer.behind block).stretch_of_mem (by simpa using hMem)
  | done => cases hMem

theorem Standing.widths {s : State} (h : Standing r base s) :
    (s.tasks.filterMap Task.width?).Pairwise (· < ·) := by
  cases h with
  | walking walk => exact walk.widths
  | expanding outer _ _ => exact outer.widths
  | leaving outer _ _ => exact outer.widths
  | done => exact .nil

/-- The next slot of a walk and the fragment in front of it. -/
theorem Standing.exists_slot {s : State} (h : Standing r base s) {start next stop : Nat}
    {rest : List Task} (hVisits : s.Visits start next stop rest) :
    r.Stretch start next stop ∧ ∃ fragment slot, r.fragments[next]? = some fragment ∧
      r.slots[next]? = some slot ∧
      r.step s = some (r.visit start next stop ⟨rest, s.scope, s.text ++ fragment⟩ slot) := by
  obtain ⟨hTasks, hLt⟩ := hVisits
  have hStretch : r.Stretch start next stop := h.stretch_of_mem (by simp [hTasks])
  obtain ⟨fragment, hFragment⟩ := hStretch.exists_fragment hStretch.next_lt
  obtain ⟨slot, hSlot⟩ := hStretch.exists_slot hLt
  refine ⟨hStretch, fragment, slot, hFragment, hSlot, ?_⟩
  obtain ⟨tasks, scope, text⟩ := s
  subst hTasks
  exact step_slot hLt hFragment hSlot

/-- **Nothing goes wrong where a render can stand.** -/
theorem safe_of_standing {s : State} (h : Standing r base s) : r.Safe s where
  bounds start next stop hMem := by
    have hStretch := h.stretch_of_mem hMem
    exact ⟨hStretch.start_le, hStretch.next_lt, hStretch.stop_le⟩
  shorter := h.widths
  last_exists start next stop rest hTasks := by
    have hStretch : r.Stretch start next stop := h.stretch_of_mem (by simp [hTasks])
    have hNext := hStretch.next_lt
    have hStop := hStretch.stop_le
    omega
  slot_exists start next stop rest hVisits := by
    obtain ⟨-, fragment, slot, hFragment, hSlot, -⟩ := h.exists_slot hVisits
    exact ⟨(List.getElem?_eq_some_iff.mp hFragment).1, (List.getElem?_eq_some_iff.mp hSlot).1⟩
  section_ends start next stop rest driver hVisits hSlot := by
    obtain ⟨hStretch, -⟩ := h.exists_slot hVisits
    obtain ⟨e, hMatches, hEnd⟩ := hStretch.exists_end hVisits.lt hSlot
    exact ⟨e, (endOf_iff_matches r.ofSlots_eq next e).mpr hMatches, hMatches.lt, by omega⟩
  no_end start next stop rest hVisits := by
    obtain ⟨hStretch, -⟩ := h.exists_slot hVisits
    exact hStretch.not_closing hVisits.lt
  advances start next stop rest s' hVisits hStep := by
    obtain ⟨hStretch, fragment, slot, -, hSlot, hNext⟩ := h.exists_slot hVisits
    obtain rfl := Option.some.inj (hNext.symm.trans hStep)
    cases slot with
    | direct value => exact ⟨next + 1, [], Nat.lt_succ_self next, hVisits.lt, rfl⟩
    | accessor a => exact ⟨next + 1, [], Nat.lt_succ_self next, hVisits.lt, rfl⟩
    | closing => exact absurd hSlot (hStretch.not_closing hVisits.lt)
    | opening driver =>
        obtain ⟨e, hMatches, hEnd⟩ := hStretch.exists_end hVisits.lt hSlot
        rw [visit_opening ((endOf_iff_matches r.ofSlots_eq next e).mpr hMatches)]
        exact ⟨e + 1, [.body _ _ _], Nat.lt_succ_of_lt hMatches.lt, hEnd, rfl⟩
  progress hTasks := by
    rcases standing_step h with hDone | ⟨s', hStep, -⟩
    · exact absurd hDone hTasks
    · exact ⟨s', hStep⟩

/-- **Rendering a template with matching sections never goes wrong and always ends.** -/
theorem render_never_fails (fragments : List String) (slots : List Slot)
    (options : RenderOptions) {sections : SectionMap}
    (hLength : fragments.length = slots.length + 1)
    (hSections : ofSlots slots = .ok sections) :
    ∃ r text, ofParts fragments slots options = .ok r ∧
      r.slots = slots ∧ r.sections = sections ∧ r.fragments.length = fragments.length ∧
      (∀ s, r.Reaches (r.start Scope.empty) s → r.Safe s) ∧
      r.Reaches (r.start Scope.empty) ⟨[], Scope.empty, text⟩ ∧
      r.render Scope.empty = some text ∧
      renderParts fragments slots options = .ok text := by
  have hParts := ofParts_eq_ok options hLength hSections
  generalize hr : Rendering.mk _ _ _ _ _ _ = r at hParts
  obtain ⟨tree, hFragments, hSlots⟩ := exists_tree r
  have hRender := render_eq_some hFragments hSlots Scope.empty
  refine ⟨r, tree.render r.placeholder Scope.empty, hParts, ?_, ?_, ?_, ?_,
    reaches_end hFragments hSlots _, hRender, renderParts_eq_ok hParts hRender⟩
  · rw [← hr]
  · rw [← hr]
  · rw [← hr]
    exact length_shownFragments fragments slots options
  · intro s hReaches
    exact safe_of_standing (standing_of_reaches hReaches)

theorem render_never_fails_nestedLoops :
    nestedLoops.fragments.length = nestedLoops.slots.length + 1 ∧
      ∃ r, ofParts nestedLoops.fragments nestedLoops.slots {} = .ok r ∧
        (∀ s, r.Reaches (r.start Scope.empty) s → r.Safe s) ∧
        r.render Scope.empty = some "(ab)(c)" := by
  obtain ⟨r, text, hParts, hSlots, -, -, hSafe, -, hRender, hText⟩ :=
    render_never_fails nestedLoops.fragments nestedLoops.slots {} rfl nestedLoops_sections
  obtain ⟨-, -, -, hTree⟩ := renderParts_tree nestedLoops {} rfl
  obtain rfl : "(ab)(c)" = text := Except.ok.inj (hTree.symm.trans hText)
  exact ⟨rfl, r, hParts, hSafe, hRender⟩

end Stencil.Rendering
