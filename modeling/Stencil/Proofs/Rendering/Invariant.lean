import Stencil.Proofs.Rendering.Steps
import Stencil.Proofs.Section.Pairing

/-!
# Where a render stands

A render stands in a walk over a range of the template, inside a body of a section, inside a
walk over a larger range, and so on outwards to the walk over the whole template. Each of the
ranges is a stretch whose sections pair up inside it, of which a part that pairs up by itself
has been walked over. That is the invariant of the machine: `Walk` says it of the tasks and
frames behind a walk, `Standing` of a state.

## Main results

* `Stretch.not_closing`, `Stretch.exists_end` — a walk meets no section end, and a section
  that starts in its range ends there.
* `standing_step`, `standing_of_reaches` — every step keeps the invariant, so it holds
  wherever a render gets to, and a render with tasks left always has a next step.
* `Walk.scope_unique` — the tasks that are left determine the frames.
-/

namespace Stencil.Rendering

open Section

variable {r : Rendering}

/-! ## Stretches -/

/-- What the slots of a rendering do. -/
def kinds (r : Rendering) : List SlotKind := r.slots.map Slot.kind

theorem length_kinds (r : Rendering) : r.kinds.length + 1 = r.fragments.length := by
  rw [kinds, List.length_map, r.length_fragments]

/-- The sections of the range from `start` to `stop` pair up inside it, and so do those before
slot `next`. -/
structure Stretch (r : Rendering) (start next stop : Nat) : Prop where
  start_le : start ≤ next
  next_lt : next < stop
  stop_le : stop ≤ r.fragments.length
  whole : Balanced (slice r.kinds start (stop - 1))
  walked : Balanced (slice r.kinds start next)

namespace Stretch

variable {start next stop : Nat}

theorem next_le_length (h : r.Stretch start next stop) : next ≤ r.kinds.length := by
  have hLength := r.length_kinds
  have hNext := h.next_lt
  have hStop := h.stop_le
  omega

theorem stop_le_length (h : r.Stretch start next stop) : stop - 1 ≤ r.kinds.length := by
  have hLength := r.length_kinds
  have hStop := h.stop_le
  omega

theorem start_le_last (h : r.Stretch start next stop) : start ≤ stop - 1 := by
  have hStart := h.start_le
  have hNext := h.next_lt
  omega

/-- The list is as high at the next slot as at the start of the range. -/
theorem height_next (h : r.Stretch start next stop) :
    height r.kinds next = height r.kinds start :=
  ((balanced_slice_iff h.start_le h.next_le_length).mp h.walked).2

/-- Inside the range the list is never lower than at its start. -/
theorem height_le (h : r.Stretch start next stop) {n : Nat} (hStart : start ≤ n)
    (hStop : n < stop) : height r.kinds start ≤ height r.kinds n := by
  have hWhole := (balanced_slice_iff h.start_le_last h.stop_le_length).mp h.whole
  exact hWhole.1 n hStart (by omega)

/-- At its end the list is as high as at the start of the range. -/
theorem height_last (h : r.Stretch start next stop) :
    height r.kinds (stop - 1) = height r.kinds start :=
  ((balanced_slice_iff h.start_le_last h.stop_le_length).mp h.whole).2

/-- A walk may go on at any later place of the range where the list is as high as at its
start. -/
theorem move (h : r.Stretch start next stop) {later : Nat} (hLe : next ≤ later)
    (hLt : later < stop) (hHeight : height r.kinds later = height r.kinds start) :
    r.Stretch start later stop where
  start_le := Nat.le_trans h.start_le hLe
  next_lt := hLt
  stop_le := h.stop_le
  whole := h.whole
  walked := by
    have hStop := h.stop_le_length
    have hLength : later ≤ r.kinds.length := by omega
    apply (balanced_slice_iff (Nat.le_trans h.start_le hLe) hLength).mpr
    constructor
    · intro n hn hn'
      exact h.height_le hn (Nat.lt_of_le_of_lt hn' hLt)
    · exact hHeight

/-- The whole template, before its first slot. -/
theorem template (r : Rendering) : r.Stretch 0 0 r.fragments.length where
  start_le := Nat.le_refl 0
  next_lt := by
    rw [r.length_fragments]
    omega
  stop_le := Nat.le_refl _
  whole := by
    rw [← r.length_kinds, Nat.add_sub_cancel, slice, List.take_length]
    exact balanced_of_ofSlots r.ofSlots_eq
  walked := balanced_nil

/-- The body of a section, before its first slot. -/
theorem body {s e : Nat} (h : Matches r.kinds s e) : r.Stretch (s + 1) (s + 1) (e + 1) where
  start_le := Nat.le_refl _
  next_lt := Nat.succ_lt_succ h.lt
  stop_le := by
    have hLength := r.length_kinds
    have hEnd := h.end_lt_length
    omega
  whole := h.inside
  walked := by
    simpa [slice] using balanced_nil

theorem exists_slot (h : r.Stretch start next stop) (hLt : next + 1 < stop) :
    ∃ slot, r.slots[next]? = some slot := by
  have hStop := h.stop_le
  have hLength := r.length_fragments
  have hSlot : next < r.slots.length := by omega
  exact ⟨_, List.getElem?_eq_getElem hSlot⟩

theorem exists_fragment (h : r.Stretch start next stop) {n : Nat} (hLt : n < stop) :
    ∃ fragment, r.fragments[n]? = some fragment :=
  ⟨_, List.getElem?_eq_getElem (Nat.lt_of_lt_of_le hLt h.stop_le)⟩

theorem kind_at {slot : Slot} (hSlot : r.slots[next]? = some slot) :
    r.kinds[next]? = some slot.kind := by
  rw [kinds, List.getElem?_map, hSlot]
  rfl

theorem skip (h : r.Stretch start next stop) (hLt : next + 1 < stop) {slot : Slot}
    (hSlot : r.slots[next]? = some slot) (hKind : slot.kind.isMarker = false) :
    r.Stretch start (next + 1) stop := by
  apply h.move (Nat.le_succ next) hLt
  rw [height_skip (kind_at hSlot) hKind, h.height_next]

/-- A walk never stands before a section end. -/
theorem not_closing (h : r.Stretch start next stop) (hLt : next + 1 < stop) :
    r.slots[next]? ≠ some .closing := by
  intro hSlot
  have hBelow := height_succ (kind_at hSlot)
  rw [h.height_next] at hBelow
  have hStart := h.start_le
  have hAbove := h.height_le (show start ≤ next + 1 by omega) hLt
  simp only [Slot.kind, rise] at hBelow
  omega

/-- A section that starts inside a stretch ends inside it. -/
theorem exists_end (h : r.Stretch start next stop) (hLt : next + 1 < stop) {driver : Driver}
    (hSlot : r.slots[next]? = some (.opening driver)) :
    ∃ e, Matches r.kinds next e ∧ e + 1 < stop := by
  obtain ⟨e, hMatches⟩ : ∃ e, Matches r.kinds next e :=
    exists_matches_of_start r.ofSlots_eq (kind_at hSlot)
  refine ⟨e, hMatches, ?_⟩
  apply Nat.lt_of_not_le
  intro hLe
  -- the last place of the range would lie inside the section, above its start
  have hHigher := hMatches.height_lt (show next < stop - 1 by omega) (by omega)
  rw [h.height_last, h.height_next] at hHigher
  exact Int.lt_irrefl _ hHigher

end Stretch

/-! ## The invariant -/

/-- The section from `s` to `e` is driven by `driver` and lies in a range up to `stop`. -/
structure Block (r : Rendering) (s e stop : Nat) (driver : Driver) : Prop where
  opening_at : r.slots[s]? = some (.opening driver)
  section_ends : Matches r.kinds s e
  end_lt : e + 1 < stop

/-- A walk over the range from `start` to `stop` stands before slot `next`, with `tasks` left
to be done behind it and inside the frames of `scope`. The outermost walk is over the whole
template, inside `base`; any other walk is over the body of a section that starts in a walk
further out, inside one of the frames that the section opens there. -/
inductive Walk (r : Rendering) (base : Scope) : Nat → Nat → Nat → List Task → Scope → Prop
  | outermost {next : Nat} (stretch : r.Stretch 0 next r.fragments.length) :
      Walk r base 0 next r.fragments.length [] base
  | inner {start s e stop next : Nat} {tasks : List Task} {scope : Scope} {driver : Driver}
      {frame : Frame} {more : List Frame} (outer : Walk r base start s stop tasks scope)
      (block : r.Block s e stop driver)
      (frames : frame :: more <:+ Frame.expand (driver.evaluate scope))
      (stretch : r.Stretch (s + 1) next (e + 1)) :
      Walk r base (s + 1) next (e + 1)
        (.leave :: .body (s + 1) (e + 1) more :: .range start (e + 1) stop :: tasks)
        (scope.push frame)

/-- Where a render can stand. -/
inductive Standing (r : Rendering) (base : Scope) : State → Prop
  | walking {start next stop : Nat} {tasks : List Task} {scope : Scope} {text : String}
      (walk : Walk r base start next stop tasks scope) :
      Standing r base ⟨.range start next stop :: tasks, scope, text⟩
  | expanding {start s e stop : Nat} {tasks : List Task} {scope : Scope} {text : String}
      {driver : Driver} {frames : List Frame} (outer : Walk r base start s stop tasks scope)
      (block : r.Block s e stop driver)
      (frames_left : frames <:+ Frame.expand (driver.evaluate scope)) :
      Standing r base
        ⟨.body (s + 1) (e + 1) frames :: .range start (e + 1) stop :: tasks, scope, text⟩
  | leaving {start s e stop : Nat} {tasks : List Task} {scope : Scope} {text : String}
      {driver : Driver} {frame : Frame} {more : List Frame}
      (outer : Walk r base start s stop tasks scope) (block : r.Block s e stop driver)
      (frames_left : frame :: more <:+ Frame.expand (driver.evaluate scope)) :
      Standing r base
        ⟨.leave :: .body (s + 1) (e + 1) more :: .range start (e + 1) stop :: tasks,
          scope.push frame, text⟩
  | done {text : String} : Standing r base ⟨[], base, text⟩

namespace Walk

variable {base scope : Scope} {start next stop : Nat} {tasks : List Task}

theorem stretch (h : Walk r base start next stop tasks scope) :
    r.Stretch start next stop := by
  cases h with
  | outermost hStretch => exact hStretch
  | inner _ _ _ hStretch => exact hStretch

theorem move (h : Walk r base start next stop tasks scope) {later : Nat}
    (hStretch : r.Stretch start later stop) : Walk r base start later stop tasks scope := by
  cases h with
  | outermost _ => exact .outermost hStretch
  | inner outer block frames _ => exact .inner outer block frames hStretch

/-- A walk that opens a section goes on behind its end. -/
theorem behind (h : Walk r base start next stop tasks scope) {e : Nat} {driver : Driver}
    (hBlock : r.Block next e stop driver) :
    Walk r base start (e + 1) stop tasks scope := by
  have hStart := hBlock.section_ends.lt
  have hBack : height r.kinds (e + 1) = height r.kinds start := by
    rw [hBlock.section_ends.height_behind, h.stretch.height_next]
  exact h.move (h.stretch.move (by omega) hBlock.end_lt hBack)

/-- The tasks that are left behind a walk determine its frames. -/
theorem scope_unique {start' next' stop' : Nat} {scope' : Scope}
    (h : Walk r base start next stop tasks scope)
    (h' : Walk r base start' next' stop' tasks scope') : scope = scope' := by
  induction h generalizing start' next' stop' scope' with
  | outermost _ => cases h' with | outermost _ => rfl
  | inner _ block frames _ ih =>
      cases h' with
      | inner outer' block' frames' _ =>
          obtain rfl := ih outer'
          have hSlot := Option.some.inj (block.opening_at.symm.trans block'.opening_at)
          obtain rfl := Slot.opening.inj hSlot
          -- both frames stand in front of the same frames, in the list that the section opens
          have hSuffix := List.suffix_of_suffix_length_le frames frames' (by simp)
          rw [(List.cons.inj (hSuffix.eq_of_length (by simp))).1]

end Walk

/-- A render whose next task is a walk stands in that walk. -/
theorem Standing.walk {base : Scope} {s : State} (h : Standing r base s)
    {start next stop : Nat} {rest : List Task} (hTasks : s.tasks = .range start next stop :: rest) :
    Walk r base start next stop rest s.scope := by
  cases h with
  | walking walk =>
      obtain ⟨hRange, rfl⟩ := List.cons.inj hTasks
      obtain ⟨rfl, rfl, rfl⟩ := Task.range.inj hRange
      exact walk
  | expanding _ _ _ => simp at hTasks
  | leaving _ _ _ => simp at hTasks
  | done => cases hTasks

/-- **Every step keeps the invariant.** A render that has tasks left takes a next step, and
stands well again after it. -/
theorem standing_step {base : Scope} {s : State} (h : Standing r base s) :
    s.tasks = [] ∨ ∃ s', r.step s = some s' ∧ Standing r base s' := by
  cases h with
  | @walking start next stop tasks scope text walk =>
      right
      have hNext := walk.stretch.next_lt
      by_cases hLt : next + 1 < stop
      · obtain ⟨fragment, hFragment⟩ := walk.stretch.exists_fragment hNext
        obtain ⟨slot, hSlot⟩ := walk.stretch.exists_slot hLt
        refine ⟨_, step_slot hLt hFragment hSlot, ?_⟩
        cases slot with
        | direct value => exact .walking (walk.move (walk.stretch.skip hLt hSlot rfl))
        | accessor a => exact .walking (walk.move (walk.stretch.skip hLt hSlot rfl))
        | closing => exact absurd hSlot (walk.stretch.not_closing hLt)
        | opening driver =>
            obtain ⟨e, hMatches, hEnd⟩ := walk.stretch.exists_end hLt hSlot
            rw [visit_opening ((endOf_iff_matches r.ofSlots_eq next e).mpr hMatches)]
            exact .expanding walk ⟨hSlot, hMatches, hEnd⟩ (List.suffix_refl _)
      · obtain ⟨fragment, hFragment⟩ :=
          walk.stretch.exists_fragment (show stop - 1 < stop by omega)
        refine ⟨_, step_last (by omega) (Nat.le_of_not_lt hLt) hFragment, ?_⟩
        cases walk with
        | outermost _ => exact .done
        | inner outer block frames _ => exact .leaving outer block frames
  | @expanding _ _ _ _ _ _ _ _ frames outer block frames_left =>
      right
      cases frames with
      | nil => exact ⟨_, step_body_nil, .walking (outer.behind block)⟩
      | cons frame more =>
          exact ⟨_, step_body,
            .walking (.inner outer block frames_left (Stretch.body block.section_ends))⟩
  | leaving outer block frames_left =>
      exact .inr ⟨_, step_leave,
        .expanding outer block ((List.suffix_cons _ _).trans frames_left)⟩
  | done => exact .inl rfl

theorem standing_start (r : Rendering) (base : Scope) : Standing r base (r.start base) :=
  .walking (.outermost (Stretch.template r))

/-- Any number of steps keep the invariant. -/
theorem Standing.reaches {base : Scope} {s t : State} (hStanding : Standing r base s)
    (h : r.Reaches s t) : Standing r base t := by
  induction h with
  | refl => exact hStanding
  | @head s s' t first _ ih =>
      rcases standing_step hStanding with hDone | ⟨s'', hNext, hStanding'⟩
      · have hNone : r.step s = none := by simp [step, hDone]
        rw [hNone] at first
        cases first
      · rw [Option.some.inj (hNext.symm.trans first)] at hStanding'
        exact ih hStanding'

/-- **The invariant holds wherever a render gets to.** -/
theorem standing_of_reaches {base : Scope} {s : State} (h : r.Reaches (r.start base) s) :
    Standing r base s := (standing_start r base).reaches h

end Stencil.Rendering
