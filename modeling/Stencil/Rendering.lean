import Stencil.Section
import Stencil.Value.Text

/-!
# Rendering

A template is rendered by walking over ranges of its fragments. The range from `start` to
`stop` holds the fragments `start`, …, `stop - 1` and the slots between them. The walk goes
from slot to slot; at the start of a section it looks up where the section ends, walks over
the body once for each frame that the section opens, and goes on behind the end.

A render is a machine that takes one step after the other. It keeps a stack of tasks, the
walks it is in the middle of, and a stack of frames, the sections around the place where it
stands. A frame is pushed before the body is shown inside it and popped afterwards. Nothing
guards the walk against leaving its range: a fragment or a slot that is not there stops the
machine with no text at all, and a walk that goes round in circles never ends.

## Main results

* `run_of_step`, `run_of_reaches`, `run_done` — a render gives the text that it gives from the
  next step on, and from every state it passes through, and ends when no task is left.
-/

namespace Stencil

/-- A template whose sections have been paired up, ready to be rendered. -/
structure Rendering where
  fragments : List String
  slots : List Slot
  /-- Where the sections end. -/
  sections : SectionMap
  /-- The text that stands for null. -/
  placeholder : String
  /-- There is a fragment before each slot and one after the last. -/
  length_fragments : fragments.length = slots.length + 1
  /-- The sections are those of the slots. -/
  ofSlots_eq : Section.ofSlots slots = .ok sections

namespace Rendering

/-- Something that is left to do. -/
inductive Task
  /-- Go on with the walk over the range from `start` to `stop`, which stands before fragment
  `next`. -/
  | range (start next stop : Nat)
  /-- Walk over the range from `start` to `stop` once inside each of `frames`. -/
  | body (start stop : Nat) (frames : List Frame)
  /-- Leave the innermost section. -/
  | leave
  deriving Inhabited

/-- Where a render stands. -/
structure State where
  /-- What is left to do, the next task first. -/
  tasks : List Task
  /-- The frames of the sections around the place. -/
  scope : Scope
  text : String

namespace State

/-- The state with one more task, to be done next. -/
def push (s : State) (task : Task) : State := { s with tasks := task :: s.tasks }

/-- The state with more text. -/
def write (s : State) (more : String) : State := { s with text := s.text ++ more }

end State

variable (r : Rendering)

/-- Shows slot `next` of the range from `start` to `stop` and goes on behind it. At the start
of a section that is everything up to the end of the section; markers that belong to no
section of the range show nothing. -/
def visit (start next stop : Nat) (s : State) : Slot → State
  | .direct value => (s.write (value.display r.placeholder)).push (.range start (next + 1) stop)
  | .accessor a =>
    (s.write ((a.evaluate s.scope).display r.placeholder)).push (.range start (next + 1) stop)
  | .opening driver =>
    match r.sections.endOf next with
    | some close =>
      (s.push (.range start (close + 1) stop)).push
        (.body (next + 1) (close + 1) (Frame.expand (driver.evaluate s.scope)))
    | none => s.push (.range start (next + 1) stop)
  | .closing => s.push (.range start (next + 1) stop)

/-- Does one step of a task; `s` holds the tasks after it. There is no next state if the task
needs a fragment or a slot that is not there. -/
def perform (s : State) : Task → Option State
  | .range start next stop =>
    if stop = 0 then
      some s
    else if next < stop - 1 then
      match r.fragments[next]?, r.slots[next]? with
      | some fragment, some slot => some (r.visit start next stop (s.write fragment) slot)
      | _, _ => none
    else
      r.fragments[stop - 1]?.map s.write
  | .body start stop (frame :: more) =>
    some
      { tasks := .range start start stop :: .leave :: .body start stop more :: s.tasks
        scope := s.scope.push frame
        text := s.text }
  | .body _ _ [] => some s
  | .leave => some { s with scope := s.scope.outer 1 }

/-- The state after one step. There is none after the last step, and none if the machine
needs a fragment or a slot that is not there. -/
def step (s : State) : Option State :=
  match s.tasks with
  | [] => none
  | task :: rest => r.perform { s with tasks := rest } task

/-- The text of a render that goes on from a state. There is none if the machine stops with
tasks left, and none if it never stops. -/
def run : ReaderT State Option String := fun s => do
  if s.tasks.isEmpty then return s.text
  run.run (← r.step s)
partial_fixpoint

/-- The first state of a render inside the sections whose frames are given by `scope`. -/
def start (scope : Scope) : State := ⟨[.range 0 0 r.fragments.length], scope, ""⟩

/-- The text of a template, all of it inside the sections whose frames are given by
`scope`. -/
def render (scope : Scope) : Option String := r.run (r.start scope)

/-- The state `t` comes after `s`, any number of steps later. -/
inductive Reaches (r : Rendering) : State → State → Prop
  | refl {s : State} : Reaches r s s
  | head {s s' t : State} (first : r.step s = some s') (rest : Reaches r s' t) : Reaches r s t

/-- A render with no task left has its text. -/
theorem run_done (scope : Scope) (text : String) : r.run ⟨[], scope, text⟩ = some text := by
  rw [run]
  rfl

/-- A render gives the text that it gives from the next step on. -/
theorem run_of_step {s s' : State} (h : r.step s = some s') : r.run s = r.run s' := by
  have hTasks : s.tasks.isEmpty = false := by
    cases hs : s.tasks with
    | nil => simp [step, hs] at h
    | cons task rest => rfl
  rw [run, hTasks, h]
  rfl

variable {r}

theorem Reaches.trans {s t u : State} (h : r.Reaches s t) (h' : r.Reaches t u) :
    r.Reaches s u := by
  induction h with
  | refl => exact h'
  | head first _ ih => exact .head first (ih h')

/-- A render gives the same text from every state it passes through. -/
theorem run_of_reaches {s t : State} (h : r.Reaches s t) : r.run s = r.run t := by
  induction h with
  | refl => rfl
  | head first _ ih => exact (run_of_step r first).trans ih

end Rendering

end Stencil
