import Stencil.Rendering

/-!
# The steps of a render

What each kind of step does to a state, as equations. After this nothing needs to look inside the
machine.

## Main results

* `step_slot`, `step_last`, `step_body`, `step_leave` — the steps of a walk and of a section.
* `step_eq_some_iff` — all that a step can do.
-/

namespace Stencil.Rendering

variable {r : Rendering} {rest : List Task} {scope : Scope} {text : String}

/-! ## One step -/

/-- A walk copies the fragment in front of a slot and visits the slot. -/
theorem step_slot {start next stop : Nat} {fragment : String} {slot : Slot}
    (hLt : next + 1 < stop) (hFragment : r.fragments[next]? = some fragment)
    (hSlot : r.slots[next]? = some slot) :
    r.step ⟨.range start next stop :: rest, scope, text⟩ =
      some (r.visit start next stop ⟨rest, scope, text ++ fragment⟩ slot) := by
  have hStop : stop ≠ 0 := by omega
  have hNext : next < stop - 1 := by omega
  simp [step, perform, State.write, hStop, hNext, hFragment, hSlot]

/-- A walk ends with the last fragment of its range. -/
theorem step_last {start next stop : Nat} {fragment : String} (hPos : 0 < stop)
    (hLe : stop ≤ next + 1) (hFragment : r.fragments[stop - 1]? = some fragment) :
    r.step ⟨.range start next stop :: rest, scope, text⟩ =
      some ⟨rest, scope, text ++ fragment⟩ := by
  have hStop : stop ≠ 0 := by omega
  have hNext : ¬ next < stop - 1 := by omega
  simp [step, perform, State.write, hStop, hNext, hFragment]

/-- A section is entered with the next of its frames. -/
theorem step_body {start stop : Nat} {frame : Frame} {more : List Frame} :
    r.step ⟨.body start stop (frame :: more) :: rest, scope, text⟩ =
      some ⟨.range start start stop :: .leave :: .body start stop more :: rest,
        scope.push frame, text⟩ := rfl

theorem step_body_nil {start stop : Nat} :
    r.step ⟨.body start stop [] :: rest, scope, text⟩ = some ⟨rest, scope, text⟩ := rfl

/-- Leaving a section gives back the frames around it. -/
theorem step_leave {frame : Frame} :
    r.step ⟨.leave :: rest, scope.push frame, text⟩ = some ⟨rest, scope, text⟩ := rfl

/-- One step, by the task that it does. -/
inductive Transition (r : Rendering) : State → State → Prop
  /-- A range that stops before the first fragment has nothing to show. -/
  | pass {start next : Nat} {rest : List Task} {scope : Scope} {text : String} :
      Transition r ⟨.range start next 0 :: rest, scope, text⟩ ⟨rest, scope, text⟩
  /-- A walk copies the fragment in front of a slot and visits the slot. -/
  | slot {start next stop : Nat} {rest : List Task} {scope : Scope} {text fragment : String}
      {slot : Slot} (lt : next + 1 < stop) (fragment_at : r.fragments[next]? = some fragment)
      (slot_at : r.slots[next]? = some slot) :
      Transition r ⟨.range start next stop :: rest, scope, text⟩
        (r.visit start next stop ⟨rest, scope, text ++ fragment⟩ slot)
  /-- A walk ends with the last fragment of its range. -/
  | last {start next stop : Nat} {rest : List Task} {scope : Scope} {text fragment : String}
      (pos : 0 < stop) (le : stop ≤ next + 1)
      (fragment_at : r.fragments[stop - 1]? = some fragment) :
      Transition r ⟨.range start next stop :: rest, scope, text⟩ ⟨rest, scope, text ++ fragment⟩
  /-- A section is entered with the next of its frames. -/
  | enter {start stop : Nat} {frame : Frame} {more : List Frame} {rest : List Task}
      {scope : Scope} {text : String} :
      Transition r ⟨.body start stop (frame :: more) :: rest, scope, text⟩
        ⟨.range start start stop :: .leave :: .body start stop more :: rest, scope.push frame,
          text⟩
  /-- A section without further frames is over. -/
  | finish {start stop : Nat} {rest : List Task} {scope : Scope} {text : String} :
      Transition r ⟨.body start stop [] :: rest, scope, text⟩ ⟨rest, scope, text⟩
  | leave {rest : List Task} {scope : Scope} {text : String} :
      Transition r ⟨.leave :: rest, scope, text⟩ ⟨rest, scope.outer 1, text⟩

theorem transition_of_range {start next stop : Nat} {t : State}
    (h : r.step ⟨.range start next stop :: rest, scope, text⟩ = some t) :
    r.Transition ⟨.range start next stop :: rest, scope, text⟩ t := by
  by_cases hStop : stop = 0
  · subst hStop
    obtain rfl := Option.some.inj h
    exact .pass
  · by_cases hLt : next + 1 < stop
    · have hNext : next < stop - 1 := by omega
      cases hFragment : r.fragments[next]? with
      | none => simp [step, perform, hStop, hNext, hFragment] at h
      | some fragment =>
          cases hSlot : r.slots[next]? with
          | none => simp [step, perform, hStop, hNext, hSlot] at h
          | some slot =>
              rw [step_slot hLt hFragment hSlot] at h
              exact Option.some.inj h ▸ .slot hLt hFragment hSlot
    · have hNext : ¬ next < stop - 1 := by omega
      cases hFragment : r.fragments[stop - 1]? with
      | none => simp [step, perform, hStop, hNext, hFragment] at h
      | some fragment =>
          have hPos : 0 < stop := Nat.pos_of_ne_zero hStop
          rw [step_last hPos (Nat.le_of_not_lt hLt) hFragment] at h
          exact Option.some.inj h ▸ .last hPos (Nat.le_of_not_lt hLt) hFragment

/-- **All that a step can do.** -/
theorem step_eq_some_iff {s t : State} : r.step s = some t ↔ r.Transition s t := by
  constructor
  · intro h
    obtain ⟨tasks, scope, text⟩ := s
    cases tasks with
    | nil => cases h
    | cons task rest =>
        cases task with
        | range start next stop => exact transition_of_range h
        | body start stop frames =>
            cases frames with
            | nil => exact Option.some.inj h ▸ .finish
            | cons frame more => exact Option.some.inj h ▸ .enter
        | leave => exact Option.some.inj h ▸ .leave
  · intro h
    cases h with
    | slot lt fragment_at slot_at => exact step_slot lt fragment_at slot_at
    | last pos le fragment_at => exact step_last pos le fragment_at
    | _ => rfl

/-! ## Visiting a slot -/

theorem visit_direct {start next stop : Nat} {value : Value} :
    r.visit start next stop ⟨rest, scope, text⟩ (.direct value) =
      ⟨.range start (next + 1) stop :: rest, scope, text ++ value.display r.placeholder⟩ := rfl

theorem visit_accessor {start next stop : Nat} {a : Accessor} :
    r.visit start next stop ⟨rest, scope, text⟩ (.accessor a) =
      ⟨.range start (next + 1) stop :: rest, scope,
        text ++ (a.evaluate scope).display r.placeholder⟩ := rfl

/-- A section start with a known end opens the section and goes on behind its end. -/
theorem visit_opening {start next stop close : Nat} {driver : Driver}
    (hClose : r.sections.endOf next = some close) :
    r.visit start next stop ⟨rest, scope, text⟩ (.opening driver) =
      ⟨.body (next + 1) (close + 1) (Frame.expand (driver.evaluate scope)) ::
        .range start (close + 1) stop :: rest, scope, text⟩ := by
  simp [visit, State.push, hClose]

end Stencil.Rendering
