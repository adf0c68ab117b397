import Stencil.Proofs.Accessor.NormalForm

/-!
# Roots and what frames show

A frame shows its element, its position, and the list that is looped over. Three of the roots of
accessors read the same things, but a frame function with that result need not agree with the
root. It does for the element and the position. For the list it depends on the frame: a frame
has no list to show when what is looped over is not a list, while the root reads the looped value
whatever it is. Sections open frames over lists only; other frames come from outside.

## Main results

* `read_source_view_iff` — for which frames the root reads the list that the frame shows.
* `loopsOverList_of_mem_expand` — the frames that sections open are among them.
* `evaluate_view_iff` — which chains see the same from a root and from its frame function.
* `source_of_loop_over_text` — a loop over a text, where they do not.
-/

namespace Stencil

def Value.IsListOrNull (v : Value) : Prop := v = .null ∨ ∃ items, v = .array items

/-- What is looped over, if there is a loop, is a list or null. -/
def Frame.LoopsOverList (frame : Frame) : Prop :=
  ∀ v, frame.sourceValue = some v → v.IsListOrNull

theorem Value.ofOption_items_eq_iff (v : Value) :
    Value.ofOption (v.items?.map Value.array) = v ↔ v.IsListOrNull := by
  cases v with
  | null => exact iff_of_true rfl (.inl rfl)
  | array items => exact iff_of_true rfl (.inr ⟨items, rfl⟩)
  | _ => simp [Value.items?, Value.ofOption, Value.IsListOrNull]

/-! ## Frames -/

theorem Frame.loopsOverList_conditional (v : Value) : (conditional v).LoopsOverList := by
  intro source hSource
  cases hSource

theorem Frame.loopsOverList_looped_iff (source : Value) (position : Nat) :
    (looped source position).LoopsOverList ↔ source.IsListOrNull := by
  constructor
  · intro h
    exact h source rfl
  · intro h v hSource
    rwa [← Option.some.inj hSource]

/-- Every frame that a section opens. -/
theorem Frame.loopsOverList_of_mem_expand {v : Value} {frame : Frame}
    (h : frame ∈ Frame.expand v) : frame.LoopsOverList := by
  cases v with
  | array items =>
      obtain ⟨position, -, rfl⟩ := List.mem_map.mp h
      exact (loopsOverList_looped_iff _ _).mpr (.inr ⟨items, rfl⟩)
  | _ =>
      simp only [Frame.expand, List.mem_ite_nil_right, List.mem_singleton] at h
      rw [h.2]
      exact loopsOverList_conditional _

theorem Scope.loopsOverList_frameAt {scope : Scope}
    (h : ∀ frame ∈ scope.frames, frame.LoopsOverList) (levels : Nat) :
    (scope.frameAt levels).LoopsOverList := by
  unfold frameAt
  cases hFrame : scope.frames[levels]? with
  | none => exact Frame.loopsOverList_conditional .null
  | some frame => exact h frame (List.mem_of_getElem? hFrame)

namespace Accessor

/-! ## Roots -/

/-- The function of a frame that shows what a root is there to read. -/
def Root.view : Root → Root
  | .item => .frame Frame.element
  | .index => .frame fun seen => Value.ofOption (seen.index.map Value.ofNat)
  | .source => .frame fun seen => Value.ofOption (seen.source.map Value.array)
  | .frame f => .frame f

/-- The root reads the list that the frame shows exactly where there is no other value to read. -/
theorem read_source_view_iff (seen : Frame) :
    Root.source.view.read seen = Root.source.read seen ↔ seen.LoopsOverList := by
  cases seen with
  | conditional v => exact iff_of_true rfl (Frame.loopsOverList_conditional v)
  | looped source position =>
      rw [Frame.loopsOverList_looped_iff]
      exact Value.ofOption_items_eq_iff source

theorem isListOrNull_read_source_iff (seen : Frame) :
    (Root.source.read seen).IsListOrNull ↔ seen.LoopsOverList := by
  cases seen with
  | conditional v => exact iff_of_true (.inl rfl) (Frame.loopsOverList_conditional v)
  | looped source position => exact (Frame.loopsOverList_looped_iff source position).symm

/-- Roots that read the same in the frame that a chain leads to may stand for one another. -/
theorem evaluate_chain_congr {root other : Root} {steps : List Step} {scope : Scope}
    (h : root.read (scope.frameAt (totalLevels steps)) =
      other.read (scope.frameAt (totalLevels steps))) :
    (chain root steps).evaluate scope = (chain other steps).evaluate scope := by
  rw [evaluate_chain_eq, evaluate_chain_eq, h]

/-- Nothing but a move outwards reads the root in the frame that it leads to. -/
theorem evaluate_chain_up (root : Root) (levels : Nat) (scope : Scope) :
    (chain root [.up levels]).evaluate scope = root.read (scope.frameAt levels) :=
  evaluate_chain_eq root [.up levels] scope

/-- **Which roots read what frames show.** The roots for element and position agree with the
functions that show these, for all chains and in all scopes. The root for the list agrees for all
chains that lead to a frame exactly if that frame loops over a list, over null, or not at all;
and these are the frames where the root gives a list or null. Inside sections, and outside, there
are no other frames. -/
theorem evaluate_view_iff (scope : Scope) (levels : Nat) :
    (∀ steps, (chain Root.item.view steps).evaluate scope =
        (chain .item steps).evaluate scope) ∧
      (∀ steps, (chain Root.index.view steps).evaluate scope =
        (chain .index steps).evaluate scope) ∧
      ((∀ steps, totalLevels steps = levels →
          (chain Root.source.view steps).evaluate scope =
            (chain .source steps).evaluate scope) ↔
        (scope.frameAt levels).LoopsOverList) ∧
      (((Accessor.source.up levels).evaluate scope).IsListOrNull ↔
        (scope.frameAt levels).LoopsOverList) ∧
      ((∀ frame ∈ scope.frames, ∃ v, frame ∈ Frame.expand v) →
        (scope.frameAt levels).LoopsOverList) := by
  refine ⟨fun steps => evaluate_chain_congr rfl, fun steps => evaluate_chain_congr rfl,
    ⟨?_, ?_⟩, ?_, ?_⟩
  · intro h
    have hMove : totalLevels [.up levels] = levels := Nat.add_zero levels
    have hRead := h [.up levels] hMove
    rw [evaluate_chain_up, evaluate_chain_up] at hRead
    exact (read_source_view_iff _).mp hRead
  · intro h steps hLevels
    subst hLevels
    exact evaluate_chain_congr ((read_source_view_iff _).mpr h)
  · rw [← isListOrNull_read_source_iff, ← evaluate_chain_up]
    rfl
  · intro h
    apply Scope.loopsOverList_frameAt
    intro frame hFrame
    obtain ⟨v, hOpened⟩ := h frame hFrame
    exact Frame.loopsOverList_of_mem_expand hOpened

/-- A loop with another section inside it: an item of the list, read from the inner one. -/
theorem evaluate_view_iff_outerList :
    (∀ frame ∈
        (Scope.ofFrames [.looped (.array [.string "a"]) 0, .conditional (.bool true)]).frames,
        ∃ v, frame ∈ Frame.expand v) ∧
      totalLevels [.nth 0, .parent] = 1 ∧
      (chain Root.source.view [.nth 0, .parent]).evaluate
          (Scope.ofFrames [.looped (.array [.string "a"]) 0, .conditional (.bool true)]) =
        .string "a" := by
  have hOpened : ∀ frame ∈
      (Scope.ofFrames [.looped (.array [.string "a"]) 0, .conditional (.bool true)]).frames,
      ∃ v, frame ∈ Frame.expand v := by
    intro frame hFrame
    have hCases : frame = .conditional (.bool true) ∨
        frame = .looped (.array [.string "a"]) 0 := by
      simpa [Scope.ofFrames] using hFrame
    rcases hCases with rfl | rfl
    · exact ⟨.bool true, List.mem_singleton_self _⟩
    · exact ⟨.array [.string "a"], List.mem_singleton_self _⟩
  obtain ⟨-, -, hAgree, -, hSections⟩ := evaluate_view_iff
    (Scope.ofFrames [.looped (.array [.string "a"]) 0, .conditional (.bool true)]) 1
  refine ⟨hOpened, rfl, ?_⟩
  rw [hAgree.mpr (hSections hOpened) [.nth 0, .parent] rfl]
  rfl

/-- **A loop that is set up over a text.** The root for the list reads the text, while the frame
has no list to show. -/
theorem source_of_loop_over_text :
    (chain .source []).evaluate (Scope.ofFrames [.looped (.string "abc") 0]) = .string "abc" ∧
      (chain Root.source.view []).evaluate (Scope.ofFrames [.looped (.string "abc") 0]) =
        .null ∧
      (¬ ∀ (root : Root) (steps : List Step) (frames : List Frame),
        (chain root.view steps).evaluate (Scope.ofFrames frames) =
          (chain root steps).evaluate (Scope.ofFrames frames)) ∧
      ¬ ∀ frames : List Frame,
        (Accessor.source.evaluate (Scope.ofFrames frames)).IsListOrNull := by
  refine ⟨rfl, rfl, ?_, ?_⟩
  · intro h
    have hSame : Value.null = Value.string "abc" :=
      h .source [] [.looped (.string "abc") 0]
    cases hSame
  · intro h
    have hText : (Value.string "abc").IsListOrNull := h [.looped (.string "abc") 0]
    rcases hText with hNull | ⟨items, hItems⟩
    · cases hNull
    · cases hItems

end Accessor

end Stencil
