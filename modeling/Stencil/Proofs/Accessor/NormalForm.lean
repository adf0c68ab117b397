import Stencil.Accessor
import Stencil.Proofs.Segment.Names

/-!
# What an accessor reads

However an accessor is put together, it reads a single frame. Which one depends on nothing but
the sum of its moves outwards, wherever they stand among its segments and functions; what it
makes of the frame depends on nothing but the segments and functions. Where the moves lead out
of every section, it is the detached frame that is read.

## Main results

* `evaluate_eq_derive` — the value of an accessor is made of the frame that its moves lead to.
* `evaluate_congr` — scopes that agree as far as an accessor reaches give the same value.
* `evaluate_chain` — the value of a chain of steps: its moves add up, its segments and functions
  follow one another.
-/

namespace Stencil

/-- The frame outside the `levels` innermost sections, or the detached frame if they are all
there are. -/
def Scope.frameAt (scope : Scope) (levels : Nat) : Frame :=
  scope.frames[levels]?.getD Frame.detached

theorem Scope.frameAt_outer (scope : Scope) (m n : Nat) :
    (scope.outer m).frameAt n = scope.frameAt (m + n) := by
  simp [frameAt, outer]

/-- A frame of a scope, counted from outside. -/
theorem Scope.frameAt_ofFrames (frames : List Frame) (levels : Nat) :
    (Scope.ofFrames frames).frameAt levels =
      if h : levels < frames.length then frames[frames.length - 1 - levels]
      else Frame.detached := by
  unfold frameAt ofFrames
  by_cases h : levels < frames.length
  · rw [dif_pos h, List.getElem?_reverse h, List.getElem?_eq_getElem (by omega)]
    rfl
  · rw [dif_neg h, List.getElem?_eq_none (by rw [List.length_reverse]; omega)]
    rfl

namespace Accessor

/-! ## The frame and what is made of it -/

/-- The sum of the moves outwards. -/
def totalUp : Accessor → Nat
  | .element => 0
  | .index => 0
  | .source => 0
  | .frame _ => 0
  | .get inner _ => inner.totalUp
  | .map inner _ => inner.totalUp
  | .outside levels inner => levels + inner.totalUp

/-- What an accessor makes of a frame, its moves outwards left aside. -/
def derive : Accessor → Frame → Value
  | .element, seen => seen.element
  | .index, seen => Value.ofOption (seen.index.map Value.ofNat)
  | .source, seen => Value.ofOption seen.sourceValue
  | .frame f, seen => f seen
  | .get inner segment, seen => Value.ofOption (segment.lookup (inner.derive seen))
  | .map inner f, seen => f (inner.derive seen)
  | .outside _ inner, seen => inner.derive seen

/-- **An accessor reads one frame.** It is the one that its moves outwards add up to. -/
theorem evaluate_eq_derive (a : Accessor) (scope : Scope) :
    a.evaluate scope = a.derive (scope.frameAt a.totalUp) := by
  induction a generalizing scope with
  | get inner segment ih => rw [evaluate, ih, derive, totalUp]
  | map inner f ih => rw [evaluate, ih, derive, totalUp]
  | outside levels inner ih => rw [evaluate, ih, derive, totalUp, Scope.frameAt_outer]
  | _ =>
      obtain ⟨frames⟩ := scope
      cases frames <;> rfl

/-- Scopes that agree on more frames than an accessor moves outwards give the same value. -/
theorem evaluate_congr {a : Accessor} {scope scope' : Scope} {reach : Nat}
    (hReach : a.totalUp < reach) (hAgree : scope.frames.take reach = scope'.frames.take reach) :
    a.evaluate scope = a.evaluate scope' := by
  have hFrame : scope.frameAt a.totalUp = scope'.frameAt a.totalUp := by
    unfold Scope.frameAt
    rw [← List.getElem?_take_of_lt hReach, hAgree, List.getElem?_take_of_lt hReach]
  rw [evaluate_eq_derive, evaluate_eq_derive, hFrame]

/-! ## Chains -/

/-- What an accessor starts from. -/
inductive Root
  | item
  | index
  | source
  | frame (f : Frame → Value)

/-- One step of building an accessor. -/
inductive Step
  | field (name : String)
  | nth (position : Nat)
  | get (segment : Segment)
  | path (text : String)
  | map (f : Value → Value)
  | up (levels : Nat)
  | parent

/-- The root that an accessor starts from. -/
def root : Accessor → Root
  | .element => .item
  | .index => .index
  | .source => .source
  | .frame f => .frame f
  | .get inner _ => inner.root
  | .map inner _ => inner.root
  | .outside _ inner => inner.root

def Root.accessor : Root → Accessor
  | .item => Accessor.item
  | .index => .index
  | .source => .source
  | .frame f => .frame f

/-- What a root reads in a frame. -/
def Root.read : Root → Frame → Value
  | .item, seen => seen.element
  | .index, seen => Value.ofOption (seen.index.map Value.ofNat)
  | .source, seen => Value.ofOption seen.sourceValue
  | .frame f, seen => f seen

namespace Step

def extend (a : Accessor) : Step → Accessor
  | .field name => a.field name
  | .nth position => a.nth position
  | .get segment => a.get segment
  | .path text => a.path text
  | .map f => a.map f
  | .up levels => a.up levels
  | .parent => a.parent

/-- The number of sections that a step moves outwards. -/
def levels : Step → Nat
  | .up levels => levels
  | .parent => 1
  | .field _ => 0
  | .nth _ => 0
  | .get _ => 0
  | .path _ => 0
  | .map _ => 0

/-- Whether a step does nothing but move outwards. -/
def isMove : Step → Bool
  | .up _ => true
  | .parent => true
  | .field _ => false
  | .nth _ => false
  | .get _ => false
  | .path _ => false
  | .map _ => false

/-- What a segment finds in a value; null if that is nothing. -/
def descend (v : Value) (segment : Segment) : Value := Value.ofOption (segment.lookup v)

/-- What a step does to a value. A path looks up the nonempty pieces between its points. -/
def act (v : Value) : Step → Value
  | .field name => descend v (.key name)
  | .nth position => descend v (.index position)
  | .get segment => descend v segment
  | .path text =>
    (((text.toList.splitOn '.').filter (· ≠ [])).map String.ofList).foldl
      (fun v name => descend v (.key name)) v
  | .map f => f v
  | .up _ => v
  | .parent => v

end Step

/-- The accessor that is built from a root in some steps. -/
def chain (root : Root) (steps : List Step) : Accessor := steps.foldl Step.extend root.accessor

/-- The sum of the moves outwards of some steps. -/
def totalLevels (steps : List Step) : Nat := steps.foldr (fun step n => step.levels + n) 0

theorem totalUp_up (a : Accessor) (levels : Nat) :
    (a.up levels).totalUp = levels + a.totalUp := by
  unfold up
  split
  · rename_i hZero
    rw [hZero, Nat.zero_add]
  · rfl

theorem derive_up (a : Accessor) (levels : Nat) (seen : Frame) :
    (a.up levels).derive seen = a.derive seen := by
  unfold up
  split <;> rfl

theorem totalUp_path (a : Accessor) (text : String) : (a.path text).totalUp = a.totalUp := by
  unfold path
  induction Segment.keys text generalizing a with
  | nil => rfl
  | cons name rest ih => exact ih (a.field name)

theorem derive_path (a : Accessor) (text : String) (seen : Frame) :
    (a.path text).derive seen =
      (Segment.keys text).foldl (fun v name => Step.descend v (.key name)) (a.derive seen) := by
  unfold path
  induction Segment.keys text generalizing a with
  | nil => rfl
  | cons name rest ih => exact ih (a.field name)

/-- A step adds its moves outwards to those of the accessor. -/
theorem totalUp_extend (a : Accessor) (step : Step) :
    (step.extend a).totalUp = step.levels + a.totalUp := by
  cases step with
  | path text => simp [Step.extend, Step.levels, totalUp_path]
  | up levels => exact totalUp_up a levels
  | parent => exact totalUp_up a 1
  | _ => simp [Step.extend, Step.levels, totalUp, field, nth]

/-- A step acts on what the accessor makes of a frame. -/
theorem derive_extend (a : Accessor) (step : Step) (seen : Frame) :
    (step.extend a).derive seen = step.act (a.derive seen) := by
  cases step with
  | path text => rw [Step.extend, derive_path, Segment.keys_eq_splitOn, Step.act]
  | up levels => exact derive_up a levels seen
  | parent => exact derive_up a 1 seen
  | _ => rfl

theorem totalUp_foldl (steps : List Step) (a : Accessor) :
    (steps.foldl Step.extend a).totalUp = totalLevels steps + a.totalUp := by
  induction steps generalizing a with
  | nil => exact (Nat.zero_add _).symm
  | cons step rest ih =>
      rw [List.foldl_cons, ih, totalUp_extend]
      show totalLevels rest + (step.levels + a.totalUp) =
        step.levels + totalLevels rest + a.totalUp
      omega

/-- Only the steps that are no moves act on the value. -/
theorem derive_foldl (steps : List Step) (a : Accessor) (seen : Frame) :
    (steps.foldl Step.extend a).derive seen =
      (steps.filter fun step => !step.isMove).foldl Step.act (a.derive seen) := by
  induction steps generalizing a with
  | nil => rfl
  | cons step rest ih =>
      rw [List.foldl_cons, ih, derive_extend, List.filter_cons]
      cases step <;> rfl

theorem totalUp_root (root : Root) : root.accessor.totalUp = 0 := by
  cases root <;> rfl

theorem derive_root (root : Root) (seen : Frame) :
    root.accessor.derive seen = root.read seen := by
  cases root <;> rfl

/-- The value of a chain, by the frame that its moves lead to. -/
theorem evaluate_chain_eq (root : Root) (steps : List Step) (scope : Scope) :
    (chain root steps).evaluate scope =
      (steps.filter fun step => !step.isMove).foldl Step.act
        (root.read (scope.frameAt (totalLevels steps))) := by
  rw [evaluate_eq_derive, chain, derive_foldl, totalUp_foldl, totalUp_root, derive_root,
    Nat.add_zero]

/-- **The normal form of a chain.** Its root reads the frame as many sections further out as all
moves of the chain add up to, or the detached frame if there are not as many; then the other
steps act on the value from left to right. So chains with the same other steps and the same sum
of moves are worth the same everywhere, and outside every section a chain sees the detached
frame. -/
theorem evaluate_chain (root : Root) (steps : List Step) :
    (∀ frames : List Frame,
        (chain root steps).evaluate (Scope.ofFrames frames) =
          (steps.filter fun step => !step.isMove).foldl Step.act
            (root.read
              (if h : totalLevels steps < frames.length then
                frames[frames.length - 1 - totalLevels steps]
              else Frame.detached))) ∧
      (∀ others : List Step,
        (others.filter fun step => !step.isMove) = (steps.filter fun step => !step.isMove) →
          totalLevels others = totalLevels steps →
            ∀ scope, (chain root others).evaluate scope = (chain root steps).evaluate scope) ∧
      (chain root steps).evaluate Scope.empty = (chain root steps).call Frame.detached := by
  refine ⟨fun frames => ?_, fun others hSteps hLevels scope => ?_, evaluate_empty _⟩
  · rw [evaluate_chain_eq, Scope.frameAt_ofFrames]
  · rw [evaluate_chain_eq, evaluate_chain_eq, hSteps, hLevels]

/-- Moves on either side of a path lead as far out as one move behind it. The path has an empty
piece. -/
theorem evaluate_chain_split :
    ([Step.up 1, .path "name..0", .up 0, .parent].filter fun step => !step.isMove) =
        ([Step.path "name..0", .up 2].filter fun step => !step.isMove) ∧
      totalLevels [.up 1, .path "name..0", .up 0, .parent] = totalLevels [.path "name..0", .up 2] ∧
      (chain .item [.up 1, .path "name..0", .up 0, .parent]).evaluate
          (Scope.ofFrames [.conditional (.object [("name", .array [.string "a"])]), .detached,
            .detached]) = .string "a" := by
  obtain ⟨hFrames, hAlike, -⟩ := evaluate_chain .item [.path "name..0", .up 2]
  refine ⟨rfl, rfl, ?_⟩
  rw [hAlike [.up 1, .path "name..0", .up 0, .parent] rfl rfl, hFrames]
  rfl

end Accessor

end Stencil
