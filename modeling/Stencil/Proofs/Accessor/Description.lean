import Stencil.Proofs.Accessor.NormalForm
import Stencil.Proofs.Numeral.Digits

/-!
# What the text of an accessor tells

The text of an accessor names its moves outwards first, then its root, then its segments and
functions, wherever the moves stand among these. So accessors of different make share a text.
As long as no key has a point or an opening bracket, and no function is involved, the moves, the
root and the segments can be read off the text, and they are all that the value depends on.

## Main results

* `toList_describe` — the moves of an accessor and the rest of it, in its text.
* `eq_of_describe_eq` — what two accessors of one text have in common.
* `describe_determines_value` — accessors of one text have one value, and moves may change their
  places.
-/

namespace Stencil

/-- Where a run of characters of one kind ends can be seen from the characters. -/
theorem run_append_injective {p : Char → Bool} {run run' rest rest' : List Char}
    (hRun : ∀ c ∈ run, p c = true) (hRun' : ∀ c ∈ run', p c = true)
    (hRest : ∀ c ∈ rest.head?, p c = false) (hRest' : ∀ c ∈ rest'.head?, p c = false)
    (h : run ++ rest = run' ++ rest') : run = run' ∧ rest = rest' := by
  have hTake : ∀ run rest : List Char, (∀ c ∈ run, p c = true) →
      (∀ c ∈ rest.head?, p c = false) → (run ++ rest).takeWhile p = run := by
    intro run rest hRun hRest
    rw [List.takeWhile_append_of_pos hRun]
    cases rest with
    | nil => simp
    | cons c more => simp [hRest c rfl]
  have hSame : run = run' := by
    rw [← hTake run rest hRun hRest, h, hTake run' rest' hRun' hRest']
  subst hSame
  exact ⟨rfl, List.append_cancel_left h⟩

namespace Segment

/-! ## Segments -/

/-- A position, or a name without points and opening brackets. -/
def IsClear : Segment → Prop
  | .key name => '.' ∉ name.toList ∧ '[' ∉ name.toList
  | .index _ => True

/-- Whether a segment starts with the character. -/
def isMark (c : Char) : Bool := c == '.' || c == '['

theorem toList_text_key (name : String) : (text (.key name)).toList = '.' :: name.toList := by
  rw [text, String.toList_append]
  rfl

theorem toList_text_index (n : Nat) :
    (text (.index n)).toList = '[' :: ((Numeral.ofNat n).toList ++ [']']) := by
  rw [text, String.toList_append, String.toList_append]
  rfl

variable {segment other : Segment} {rest rest' : List Char}

/-- A segment and its end can be read off a text that goes on with another segment, or ends. -/
theorem text_append_injective (h : segment.IsClear) (h' : other.IsClear)
    (hRest : ∀ c ∈ rest.head?, isMark c = true) (hRest' : ∀ c ∈ rest'.head?, isMark c = true)
    (hText : segment.text.toList ++ rest = other.text.toList ++ rest') :
    segment = other ∧ rest = rest' := by
  cases segment with
  | key name =>
      cases other with
      | key name' =>
          rw [toList_text_key, toList_text_key, List.cons_append, List.cons_append] at hText
          -- A clear name has no mark, so it ends where the next segment starts.
          have hName : ∀ name : String, '.' ∉ name.toList ∧ '[' ∉ name.toList →
              ∀ c ∈ name.toList, (!isMark c) = true := by
            intro name hClear c hMem
            have hPoint : c ≠ '.' := fun hSame => hClear.1 (hSame ▸ hMem)
            have hBracket : c ≠ '[' := fun hSame => hClear.2 (hSame ▸ hMem)
            simp [isMark, hPoint, hBracket]
          obtain ⟨hSame, hTail⟩ := run_append_injective (hName name h) (hName name' h')
            (fun c hHead => by rw [hRest c hHead]; rfl)
            (fun c hHead => by rw [hRest' c hHead]; rfl) (List.cons.inj hText).2
          rw [String.toList_injective hSame]
          exact ⟨rfl, hTail⟩
      | index n =>
          rw [toList_text_key, toList_text_index] at hText
          exact absurd (List.cons.inj hText).1 (by decide)
  | index n =>
      cases other with
      | key name =>
          rw [toList_text_key, toList_text_index] at hText
          exact absurd (List.cons.inj hText).1 (by decide)
      | index n' =>
          -- The digits of a position end at its bracket, whatever comes behind.
          rw [toList_text_index, toList_text_index, List.cons_append, List.cons_append,
            List.append_assoc, List.append_assoc] at hText
          obtain ⟨hSame, hTail⟩ := run_append_injective (Numeral.digits_ofNat n).isDigit
            (Numeral.digits_ofNat n').isDigit (by simp) (by simp) (List.cons.inj hText).2
          rw [Numeral.ofNat_injective (String.toList_injective hSame)]
          exact ⟨rfl, (List.cons.inj hTail).2⟩

/-- The text of segments, one behind the other. -/
def chars (segments : List Segment) : List Char :=
  segments.flatMap fun segment => segment.text.toList

variable {segments others : List Segment}

theorem isMark_of_head?_chars : ∀ c ∈ (chars segments).head?, isMark c = true := by
  cases segments with
  | nil => simp [chars]
  | cons segment more =>
      cases segment with
      | key name => simp [chars, toList_text_key, isMark]
      | index n => simp [chars, toList_text_index, isMark]

theorem chars_cons_ne_nil : chars (segment :: segments) ≠ [] := by
  cases segment with
  | key name => simp [chars, toList_text_key]
  | index n => simp [chars, toList_text_index]

/-- Segments can be read off their text. -/
theorem chars_injective (h : ∀ segment ∈ segments, segment.IsClear)
    (h' : ∀ segment ∈ others, segment.IsClear) (hText : chars segments = chars others) :
    segments = others := by
  induction segments generalizing others with
  | nil =>
      cases others with
      | nil => rfl
      | cons other more => exact absurd hText.symm chars_cons_ne_nil
  | cons segment rest ih =>
      cases others with
      | nil => exact absurd hText chars_cons_ne_nil
      | cons other more =>
          obtain ⟨hFirst, hTail⟩ := text_append_injective (h segment (by simp))
            (h' other (by simp)) isMark_of_head?_chars isMark_of_head?_chars hText
          rw [hFirst, ih (fun s hMem => h s (by simp [hMem]))
            (fun s hMem => h' s (by simp [hMem])) hTail]

/-! ## Names of a path -/

theorem mem_of_mem_pieces {cs piece : List Char} (h : piece ∈ pieces cs) :
    '.' ∉ piece ∧ ∀ c ∈ piece, c ∈ cs := by
  induction cs generalizing piece with
  | nil =>
      rw [List.mem_singleton.mp h]
      simp
  | cons c rest ih =>
      unfold pieces at h
      split at h
      · rcases List.mem_cons.mp h with rfl | hRest
        · simp
        · exact ⟨(ih hRest).1, fun d hMem => List.mem_cons_of_mem c ((ih hRest).2 d hMem)⟩
      · rename_i hPoint
        split at h
        · rename_i hNil
          exact absurd hNil (pieces_ne_nil rest)
        · rename_i first more hPieces
          rw [hPieces] at ih
          rcases List.mem_cons.mp h with rfl | hMore
          · obtain ⟨hFirst, hMem⟩ := ih List.mem_cons_self
            exact ⟨by simp [Ne.symm hPoint, hFirst], by simpa using fun d hd => .inr (hMem d hd)⟩
          · obtain ⟨hPiece, hMem⟩ := ih (List.mem_cons_of_mem first hMore)
            exact ⟨hPiece, fun d hd => List.mem_cons_of_mem c (hMem d hd)⟩

/-- The names of a path have no points, and brackets only where the path has. -/
theorem isClear_of_mem_keys {text name : String} (hBracket : '[' ∉ text.toList)
    (h : name ∈ keys text) : IsClear (.key name) := by
  obtain ⟨piece, hPiece, rfl⟩ := List.mem_map.mp h
  obtain ⟨hPoint, hMem⟩ := mem_of_mem_pieces (List.mem_filter.mp hPiece).1
  rw [IsClear, String.toList_ofList]
  exact ⟨hPoint, fun hIn => hBracket (hMem _ hIn)⟩

end Segment

namespace Accessor

/-! ## Parts of the text -/

/-- The moves outwards, in the order of the text. -/
def moves : Accessor → List Nat
  | .element => []
  | .index => []
  | .source => []
  | .frame _ => []
  | .get inner _ => inner.moves
  | .map inner _ => inner.moves
  | .outside levels inner => levels :: inner.moves

/-- The text without the moves outwards. -/
def trunk : Accessor → String
  | .get inner segment => inner.trunk ++ segment.text
  | .map inner _ => inner.trunk ++ "(fn)"
  | .outside _ inner => inner.trunk
  | root => root.describe

/-- The segments, the first one to look up first. -/
def segments : Accessor → List Segment
  | .element => []
  | .index => []
  | .source => []
  | .frame _ => []
  | .get inner segment => inner.segments ++ [segment]
  | .map inner _ => inner.segments
  | .outside _ inner => inner.segments

/-- The text of some moves outwards. -/
def moveChars (moves : List Nat) : List Char :=
  moves.flatMap fun levels => 'u' :: 'p' :: '(' :: ((Numeral.ofNat levels).toList ++ [')', '.'])

/-- **The moves come first** in the text of an accessor, wherever they stand in it. -/
theorem toList_describe (a : Accessor) :
    a.describe.toList = moveChars a.moves ++ a.trunk.toList := by
  induction a with
  | get inner segment ih =>
      rw [describe, String.toList_append, ih, moves, trunk, String.toList_append,
        List.append_assoc]
  | map inner f ih =>
      rw [describe, String.toList_append, ih, moves, trunk, String.toList_append,
        List.append_assoc]
  | outside levels inner ih =>
      rw [describe, String.toList_append, ih, moves, trunk, moveChars, moveChars,
        List.flatMap_cons, List.append_assoc]
      simp [String.toList_append]
  | _ => rfl

/-- The sum of the moves is how far an accessor leads. -/
theorem totalUp_eq_sum_moves (a : Accessor) : a.totalUp = a.moves.foldr (· + ·) 0 := by
  induction a with
  | get inner segment ih => rw [totalUp, moves, ih]
  | map inner f ih => rw [totalUp, moves, ih]
  | outside levels inner ih => rw [totalUp, moves, List.foldr_cons, ih]
  | _ => rfl

/-! ## Reading the text -/

/-- The roots that are named in the text. -/
def Root.IsClear : Root → Prop
  | .item => True
  | .index => True
  | .source => True
  | .frame _ => False

/-- An accessor of named roots and clear segments, without functions. -/
def IsClear : Accessor → Prop
  | .element => True
  | .index => True
  | .source => True
  | .frame _ => False
  | .get inner segment => inner.IsClear ∧ segment.IsClear
  | .map _ _ => False
  | .outside _ inner => inner.IsClear

variable {a b : Accessor} {rest rest' : List Char}

theorem IsClear.root (h : a.IsClear) : a.root.IsClear := by
  induction a with
  | get inner segment ih => exact ih h.1
  | outside levels inner ih => exact ih h
  | map inner f => exact h.elim
  | _ => exact h

theorem IsClear.segments (h : a.IsClear) : ∀ segment ∈ a.segments, segment.IsClear := by
  induction a with
  | get inner last ih =>
      intro segment hMem
      rcases List.mem_append.mp hMem with hInner | hLast
      · exact ih h.1 segment hInner
      · rw [List.mem_singleton.mp hLast]
        exact h.2
  | outside levels inner ih => exact ih h
  | map inner f => exact h.elim
  | _ => exact fun segment hMem => absurd hMem List.not_mem_nil

theorem IsClear.toList_trunk (h : a.IsClear) :
    a.trunk.toList = a.root.accessor.describe.toList ++ Segment.chars a.segments := by
  induction a with
  | get inner segment ih =>
      rw [trunk, String.toList_append, ih h.1, Accessor.root, Accessor.segments, Segment.chars,
        Segment.chars, List.flatMap_append, List.flatMap_singleton, List.append_assoc]
  | outside levels inner ih => exact ih h
  | map inner f => exact h.elim
  | frame f => exact h.elim
  | _ => rfl

/-- The segments of a clear accessor are looked up one after the other. -/
theorem IsClear.derive_eq (h : a.IsClear) (seen : Frame) :
    a.derive seen = a.segments.foldl Step.descend (a.root.read seen) := by
  induction a with
  | get inner segment ih =>
      rw [derive, ih h.1, Accessor.segments, List.foldl_append]
      rfl
  | outside levels inner ih => exact ih h
  | map inner f => exact h.elim
  | _ => rfl

theorem root_append_injective {root other : Root} (h : root.IsClear) (h' : other.IsClear)
    (hText : root.accessor.describe.toList ++ rest = other.accessor.describe.toList ++ rest') :
    root = other ∧ rest = rest' := by
  cases root <;> cases other <;> simp_all [Root.accessor, describe, Root.IsClear, item]

/-- No root starts like a move outwards. -/
theorem root_head?_ne {root : Root} (h : root.IsClear) :
    ∀ c ∈ (root.accessor.describe.toList ++ rest).head?, c ≠ 'u' := by
  cases root with
  | frame f => exact h.elim
  | _ => simp [Root.accessor, describe, item]

/-- Moves outwards and their end can be read off a text that goes on with a root. -/
theorem moveChars_append_injective {moves others : List Nat}
    (hRest : ∀ c ∈ rest.head?, c ≠ 'u') (hBehind : ∀ c ∈ rest'.head?, c ≠ 'u')
    (hText : moveChars moves ++ rest = moveChars others ++ rest') :
    moves = others ∧ rest = rest' := by
  induction moves generalizing others with
  | nil =>
      cases others with
      | nil => exact ⟨rfl, hText⟩
      | cons levels more => exact absurd rfl (hRest 'u' (by rw [show rest = _ from hText]; rfl))
  | cons levels more ih =>
      cases others with
      | nil => exact absurd rfl (hBehind 'u' (by rw [show rest' = _ from hText.symm]; rfl))
      | cons levels' more' =>
          simp only [moveChars, List.flatMap_cons, List.cons_append, List.append_assoc,
            List.cons.injEq, true_and] at hText
          obtain ⟨hSame, hTail⟩ := run_append_injective (Numeral.digits_ofNat levels).isDigit
            (Numeral.digits_ofNat levels').isDigit (by simp) (by simp) hText
          obtain ⟨hMore, hEnd⟩ := ih (List.cons.inj (List.cons.inj hTail).2).2
          rw [Numeral.ofNat_injective (String.toList_injective hSame), hMore]
          exact ⟨rfl, hEnd⟩

/-- **Accessors of one text** have the same moves, the same root and the same segments. -/
theorem eq_of_describe_eq (ha : a.IsClear) (hb : b.IsClear) (h : a.describe = b.describe) :
    a.moves = b.moves ∧ a.root = b.root ∧ a.segments = b.segments := by
  have hText := congrArg String.toList h
  rw [toList_describe, toList_describe, ha.toList_trunk, hb.toList_trunk] at hText
  obtain ⟨hMoves, hTrunk⟩ := moveChars_append_injective (root_head?_ne ha.root)
    (root_head?_ne hb.root) hText
  obtain ⟨hRoot, hChars⟩ := root_append_injective ha.root hb.root hTrunk
  exact ⟨hMoves, hRoot, Segment.chars_injective ha.segments hb.segments hChars⟩

/-- Moves, root and segments are all that a value depends on. -/
theorem evaluate_eq_of_describe_eq (ha : a.IsClear) (hb : b.IsClear)
    (h : a.describe = b.describe) (scope : Scope) : a.evaluate scope = b.evaluate scope := by
  obtain ⟨hMoves, hRoot, hSegments⟩ := eq_of_describe_eq ha hb h
  rw [evaluate_eq_derive, evaluate_eq_derive, ha.derive_eq, hb.derive_eq, totalUp_eq_sum_moves,
    totalUp_eq_sum_moves, hMoves, hRoot, hSegments]

/-! ## Chains -/

/-- A step that shows its keys in the text, all of them clear, or a move outwards. -/
def Step.IsClear : Step → Prop
  | .field name => (Segment.key name).IsClear
  | .nth _ => True
  | .get segment => segment.IsClear
  | .path text => '[' ∉ text.toList
  | .map _ => False
  | .up _ => True
  | .parent => True

theorem IsClear.up (h : a.IsClear) (levels : Nat) : (a.up levels).IsClear := by
  unfold Accessor.up
  split
  · exact h
  · exact h

theorem IsClear.path (h : a.IsClear) {text : String} (hText : '[' ∉ text.toList) :
    (a.path text).IsClear := by
  have hKeys : ∀ name ∈ Segment.keys text, (Segment.key name).IsClear :=
    fun name => Segment.isClear_of_mem_keys hText
  unfold Accessor.path
  generalize Segment.keys text = names at hKeys ⊢
  induction names generalizing a with
  | nil => exact h
  | cons name rest ih =>
      have hField : (a.field name).IsClear := ⟨h, hKeys name (by simp)⟩
      exact ih hField fun other hMem => hKeys other (by simp [hMem])

theorem IsClear.extend (h : a.IsClear) {step : Step} (hStep : step.IsClear) :
    (step.extend a).IsClear := by
  cases step with
  | path text => exact h.path hStep
  | map f => exact hStep.elim
  | up levels => exact h.up levels
  | parent => exact h.up 1
  | nth position => exact ⟨h, trivial⟩
  | field name => exact ⟨h, hStep⟩
  | get segment => exact ⟨h, hStep⟩

theorem isClear_chain {root : Root} {steps : List Step} (hRoot : root.IsClear)
    (hSteps : ∀ step ∈ steps, step.IsClear) : (chain root steps).IsClear := by
  have hFold : ∀ a : Accessor, a.IsClear → (steps.foldl Step.extend a).IsClear := by
    induction steps with
    | nil => exact fun a h => h
    | cons step rest ih =>
        exact fun a h =>
          ih (fun other hMem => hSteps other (by simp [hMem])) _ (h.extend (hSteps step (by simp)))
  apply hFold
  cases root with
  | frame f => exact hRoot.elim
  | _ => trivial

/-- Steps that do not change what is observed of an accessor may be left out, if the others
change it in a way that can be told from the observation alone. -/
theorem observe_foldl_filter {α : Type} {observe : Accessor → α} {keep : Step → Bool}
    (hSkip : ∀ (step : Step) (a : Accessor), keep step = false →
      observe (step.extend a) = observe a)
    (hKeep : ∀ (step : Step) (a b : Accessor), observe a = observe b →
      observe (step.extend a) = observe (step.extend b))
    (steps : List Step) (h : observe a = observe b) :
    observe (steps.foldl Step.extend a) =
      observe ((steps.filter keep).foldl Step.extend b) := by
  induction steps generalizing a b with
  | nil => exact h
  | cons step rest ih =>
      rw [List.foldl_cons]
      cases hStep : keep step with
      | true =>
          rw [List.filter_cons_of_pos hStep, List.foldl_cons]
          exact ih (hKeep step a b h)
      | false =>
          rw [List.filter_cons_of_neg (by simp [hStep])]
          exact ih ((hSkip step a hStep).trans h)

theorem moves_path (a : Accessor) (text : String) : (a.path text).moves = a.moves := by
  unfold path
  induction Segment.keys text generalizing a with
  | nil => rfl
  | cons name rest ih => exact ih (a.field name)

theorem trunk_up (a : Accessor) (levels : Nat) : (a.up levels).trunk = a.trunk := by
  unfold up
  split <;> rfl

theorem moves_up_congr (h : a.moves = b.moves) (levels : Nat) :
    (a.up levels).moves = (b.up levels).moves := by
  unfold up
  split
  · exact h
  · rw [moves, moves, h]

theorem trunk_path_congr (h : a.trunk = b.trunk) (text : String) :
    (a.path text).trunk = (b.path text).trunk := by
  unfold path
  induction Segment.keys text generalizing a b with
  | nil => exact h
  | cons name rest ih =>
      have hField : (a.field name).trunk = (b.field name).trunk := by
        rw [field, field, trunk, trunk, h]
      exact ih hField

/-- Only the moves of a chain are seen in the moves outwards. -/
theorem moves_chain (root : Root) (steps : List Step) :
    (chain root steps).moves = (chain root (steps.filter Step.isMove)).moves := by
  apply observe_foldl_filter
  · intro step a hStep
    cases step with
    | path text => exact moves_path a text
    | up levels => cases hStep
    | parent => cases hStep
    | _ => rfl
  · intro step a b h
    cases step with
    | path text => exact (moves_path a text).trans (h.trans (moves_path b text).symm)
    | up levels => exact moves_up_congr h levels
    | parent => exact moves_up_congr h 1
    | _ => exact h
  · rfl

/-- The moves of a chain are not seen in the text without the moves outwards. -/
theorem trunk_chain (root : Root) (steps : List Step) :
    (chain root steps).trunk = (chain root (steps.filter fun step => !step.isMove)).trunk := by
  apply observe_foldl_filter
  · intro step a hStep
    cases step with
    | up levels => exact trunk_up a levels
    | parent => exact trunk_up a 1
    | _ => cases hStep
  · intro step a b h
    cases step with
    | path text => exact trunk_path_congr h text
    | up levels => exact (trunk_up a levels).trans (h.trans (trunk_up b levels).symm)
    | parent => exact (trunk_up a 1).trans (h.trans (trunk_up b 1).symm)
    | map f => exact congrArg (· ++ "(fn)") h
    | nth position => exact congrArg (· ++ Segment.text (.index position)) h
    | field name => exact congrArg (· ++ Segment.text (.key name)) h
    | get segment => exact congrArg (· ++ segment.text) h
  · rfl

section Reordered

variable {root : Root} {steps others : List Step}
  (hMoves : steps.filter Step.isMove = others.filter Step.isMove)
  (hOthers : (steps.filter fun step => !step.isMove) = others.filter fun step => !step.isMove)

include hMoves hOthers

/-- Where the moves stand among the other steps makes no difference to the text. -/
theorem describe_chain_congr : (chain root steps).describe = (chain root others).describe := by
  apply String.toList_injective
  rw [toList_describe, toList_describe, moves_chain root steps, moves_chain root others,
    trunk_chain root steps, trunk_chain root others, hMoves, hOthers]

/-- Nor does it make one to the value. -/
theorem evaluate_chain_congr_moves (scope : Scope) :
    (chain root steps).evaluate scope = (chain root others).evaluate scope := by
  have hLevels : (chain root steps).totalUp = (chain root others).totalUp := by
    rw [totalUp_eq_sum_moves, totalUp_eq_sum_moves, moves_chain root steps,
      moves_chain root others, hMoves]
  rw [evaluate_eq_derive, evaluate_eq_derive, hLevels, chain, chain, derive_foldl, derive_foldl,
    hOthers]

end Reordered

/-- **The text of an accessor determines its value.** Two accessors that are built from named
roots by clear segments and moves outwards, in whatever order, have the same value in all scopes
if they have the same text. And the moves of a chain may change their places among its other
steps, each kind keeping its own order: neither the text nor any value changes. -/
theorem describe_determines_value :
    (∀ (root other : Root) (steps others : List Step), root.IsClear → other.IsClear →
        (∀ step ∈ steps, step.IsClear) → (∀ step ∈ others, step.IsClear) →
        (chain root steps).describe = (chain other others).describe →
        ∀ scope, (chain root steps).evaluate scope = (chain other others).evaluate scope) ∧
      ∀ (root : Root) (steps others : List Step),
        steps.filter Step.isMove = others.filter Step.isMove →
        ((steps.filter fun step => !step.isMove) = others.filter fun step => !step.isMove) →
        (chain root steps).describe = (chain root others).describe ∧
          ∀ scope, (chain root steps).evaluate scope = (chain root others).evaluate scope := by
  refine ⟨?_, ?_⟩
  · intro root other steps others hRoot hOther hSteps hOthers hText scope
    exact evaluate_eq_of_describe_eq (isClear_chain hRoot hSteps) (isClear_chain hOther hOthers)
      hText scope
  · intro root steps others hMoves hOthers
    exact ⟨describe_chain_congr hMoves hOthers, evaluate_chain_congr_moves hMoves hOthers⟩

/-- A path and single segments, with the moves outwards at other places. -/
theorem describe_determines_value_splitPath :
    Root.IsClear .item ∧
      (∀ step ∈ [Step.up 2, .path "a..b", .up 0, .nth 1], step.IsClear) ∧
      (∀ step ∈ [Step.field "a", .up 2, .get (.key "b"), .nth 1], step.IsClear) ∧
      (chain .item [.up 2, .path "a..b", .up 0, .nth 1]).describe =
        (chain .item [.field "a", .up 2, .get (.key "b"), .nth 1]).describe ∧
      (∀ scope, (chain .item [.up 2, .path "a..b", .up 0, .nth 1]).evaluate scope =
        (chain .item [.field "a", .up 2, .get (.key "b"), .nth 1]).evaluate scope) ∧
      [Step.up 2, .field "a", .parent].filter Step.isMove =
        [Step.up 2, .parent, .field "a"].filter Step.isMove ∧
      ([Step.up 2, .field "a", .parent].filter fun step => !step.isMove) =
        ([Step.up 2, .parent, .field "a"].filter fun step => !step.isMove) ∧
      (chain .item [.up 2, .field "a", .parent]).describe =
        (chain .item [.up 2, .parent, .field "a"]).describe := by
  have hPath : ∀ step ∈ [Step.up 2, .path "a..b", .up 0, .nth 1], step.IsClear := by
    simp [Step.IsClear]
  have hSingle : ∀ step ∈ [Step.field "a", .up 2, .get (.key "b"), .nth 1], step.IsClear := by
    simp [Step.IsClear, Segment.IsClear]
  have hText : (chain .item [.up 2, .path "a..b", .up 0, .nth 1]).describe =
      (chain .item [.field "a", .up 2, .get (.key "b"), .nth 1]).describe := rfl
  obtain ⟨hFaithful, hReordered⟩ := describe_determines_value
  exact ⟨trivial, hPath, hSingle, hText,
    hFaithful .item .item _ _ trivial trivial hPath hSingle hText, rfl, rfl,
    (hReordered .item _ _ rfl rfl).1⟩

end Accessor

end Stencil
