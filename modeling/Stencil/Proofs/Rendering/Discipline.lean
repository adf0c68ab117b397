import Stencil.Proofs.Rendering.Safety
import Stencil.Proofs.Section.Enclosing

/-!
# The frames around a slot

Where a render visits a slot, the frames are those of the sections around the slot, one for
each, the outermost one first. They are pushed and popped while sections are shown many times
or not at all, but at every moment they fit the place where the render stands: the frame of a
section is one that the section opens for the value its driver has further out.

## Main results

* `mem_expand_iff` — the frames that a section opens.
* `Walk.disciplined` — the frames around a slot are those of the sections around it.
* `frames_fit_sections` — at every moment of every render.
-/

namespace Stencil

/-- The frames in which a section with the given value of its driver shows its body. -/
inductive Frame.OpenedBy : Value → Frame → Prop
  /-- The section loops over a list and stands at one of its items. -/
  | loop {items : List Value} {k : Nat} (lt : k < items.length) :
      Frame.OpenedBy (.array items) (.looped (.array items) k)
  /-- The section shows its body once, for a true value that is no list. -/
  | once {value : Value} (no_list : value.items? = none) (truthy : value.isTruthy = true) :
      Frame.OpenedBy value (.conditional value)

/-- A frame shows what it stands for: an item of the list that is looped over, with its
position and the list, or a true value alone. -/
inductive Frame.Shows : Frame → Prop
  | loop {frame : Frame} {items : List Value} {k : Nat} (element : items[k]? = some frame.element)
      (index : frame.index = some k) (source : frame.source = some items) : Frame.Shows frame
  | once {frame : Frame} (element : frame.element.isTruthy = true) (index : frame.index = none)
      (source : frame.source = none) : Frame.Shows frame

/-- The frames that a section opens. -/
theorem Frame.mem_expand_iff {value : Value} {frame : Frame} :
    frame ∈ Frame.expand value ↔ frame.OpenedBy value := by
  constructor
  · intro hMem
    cases hList : value.items? with
    | some items =>
        obtain rfl : value = .array items := by
          cases value <;> simp_all [Value.items?]
        rw [Frame.expand_array, List.mem_map] at hMem
        obtain ⟨k, hk, rfl⟩ := hMem
        exact .loop (List.mem_range.mp hk)
    | none =>
        cases hTruthy : value.isTruthy with
        | true =>
            rw [Frame.expand_truthy hList hTruthy, List.mem_singleton] at hMem
            exact hMem ▸ .once hList hTruthy
        | false => simp [Frame.expand_falsy hTruthy] at hMem
  · intro hOpened
    cases hOpened with
    | @loop items k lt =>
        rw [Frame.expand_array]
        exact List.mem_map.mpr ⟨k, List.mem_range.mpr lt, rfl⟩
    | once no_list truthy => simp [Frame.expand_truthy no_list truthy]

theorem Frame.OpenedBy.shows {value : Value} {frame : Frame} (h : frame.OpenedBy value) :
    frame.Shows := by
  cases h with
  | @loop items k lt =>
      have hItem := List.getElem?_eq_getElem lt
      exact .loop (by rw [Frame.element_looped hItem, hItem]) rfl rfl
  | once _ truthy => exact .once truthy rfl rfl

namespace Rendering

open Section

/-! ## Discipline -/

/-- The frames around slot `j` are those of the sections around it. -/
structure Disciplined (slots : List Slot) (sections : SectionMap) (j : Nat) (scope : Scope) :
    Prop where
  /-- There is one frame for each section around the slot. -/
  depth_eq : scope.depth = (sections.enclosing j).length
  /-- The frame of a section, counted from outside, is one that the section opens for the value
  its driver has inside the frames further out, which are those around its start. -/
  frame_of : ∀ k s e, (sections.enclosing j)[k]? = some (s, e) →
    ∃ driver frame, slots[s]? = some (.opening driver) ∧
      scope.frames.reverse[k]? = some frame ∧
      (sections.enclosing j).take k = sections.enclosing s ∧
      frame.OpenedBy (driver.evaluate (Scope.ofFrames (scope.frames.reverse.take k)))
  /-- The frames show items of lists or single values. -/
  shows : ∀ frame ∈ scope.frames, frame.Shows

namespace Disciplined

variable {slots : List Slot} {sections : SectionMap} {j s e : Nat} {scope : Scope}

theorem outside (h : sections.enclosing j = []) :
    Disciplined slots sections j Scope.empty where
  depth_eq := by
    rw [h]
    rfl
  frame_of k s e hAt := by simp [h] at hAt
  shows := nofun

/-- Inside a section there is one frame more than at its start. -/
theorem inside {driver : Driver} {frame : Frame} (h : Disciplined slots sections s scope)
    (hEnclosing : sections.enclosing j = sections.enclosing s ++ [(s, e)])
    (hSlot : slots[s]? = some (.opening driver))
    (hFrame : frame.OpenedBy (driver.evaluate scope)) :
    Disciplined slots sections j (scope.push frame) where
  depth_eq := by
    rw [hEnclosing, List.length_append, ← h.depth_eq]
    rfl
  frame_of k s' e' hAt := by
    have hDepth : scope.frames.reverse.length = (sections.enclosing s).length := by
      rw [List.length_reverse]
      exact h.depth_eq
    rw [Scope.push, List.reverse_cons, hEnclosing]
    rw [hEnclosing] at hAt
    rcases Nat.lt_or_ge k (sections.enclosing s).length with hOuter | hInner
    · -- a section further out: all that is said of it is said in front of the new frame
      rw [List.getElem?_append_left hOuter] at hAt
      rw [List.getElem?_append_left (hDepth ▸ hOuter),
        List.take_append_of_le_length (Nat.le_of_lt hOuter),
        List.take_append_of_le_length (hDepth ▸ Nat.le_of_lt hOuter)]
      exact h.frame_of k s' e' hAt
    · obtain ⟨rfl, hEq⟩ : k = (sections.enclosing s).length ∧ (s', e') = (s, e) := by
        rw [List.getElem?_append_right hInner, List.getElem?_singleton] at hAt
        split at hAt
        · exact ⟨by omega, (Option.some.inj hAt).symm⟩
        · cases hAt
      obtain ⟨rfl, rfl⟩ := Prod.mk.inj hEq
      refine ⟨driver, frame, hSlot, ?_, List.take_left, ?_⟩
      · rw [← hDepth, List.getElem?_append_right (Nat.le_refl _), Nat.sub_self]
        rfl
      · rw [← hDepth, List.take_left, Scope.ofFrames, List.reverse_reverse]
        exact hFrame
  shows frame' hMem := by
    rcases List.mem_cons.mp hMem with rfl | hOuter
    · exact hFrame.shows
    · exact h.shows frame' hOuter

end Disciplined

variable {r : Rendering}

/-- **The frames of a walk are those of the sections around its next slot.** -/
theorem Walk.disciplined {start j stop : Nat} {tasks : List Task} {scope : Scope}
    (h : Walk r Scope.empty start j stop tasks scope) (hLt : j + 1 < stop) :
    Disciplined r.slots r.sections j scope := by
  induction h with
  | outermost stretch =>
      exact .outside (enclosing_eq_nil r.ofSlots_eq (stretch.height_next.trans (height_zero _)))
  | inner outer block frames stretch ih =>
      have hs := block.section_ends.lt
      have hStart := stretch.start_le
      have hEnclosing := enclosing_eq_append r.ofSlots_eq block.section_ends hStart
        (by omega) stretch.height_next
      have hEnd := block.end_lt
      have hFrame := Frame.mem_expand_iff.mp (frames.subset List.mem_cons_self)
      exact (ih (by omega)).inside hEnclosing block.opening_at hFrame

theorem opening_of_matches {s e : Nat} (h : Matches r.kinds s e) :
    ∃ driver, r.slots[s]? = some (.opening driver) := by
  have hStart := h.start_at
  rw [kinds, List.getElem?_map] at hStart
  obtain ⟨slot, hSlot, hKind⟩ := Option.map_eq_some_iff.mp hStart
  obtain ⟨driver, rfl⟩ := (Slot.kind_eq_sectionStart_iff slot).mp hKind
  exact ⟨driver, hSlot⟩

/-- A section that is visited gets to its end, with the frames that were there before it. -/
theorem reaches_behind_section {base : Scope} {s : State} (h : Standing r base s)
    {start j stop close : Nat} {rest : List Task} (hVisits : s.Visits start j stop rest)
    (hClose : r.sections.endOf j = some close) :
    ∃ text, r.Reaches s ⟨.range start (close + 1) stop :: rest, s.scope, text⟩ := by
  have hMatches := (endOf_iff_matches r.ofSlots_eq j close).mp hClose
  obtain ⟨driver, hDriver⟩ := opening_of_matches hMatches
  obtain ⟨-, fragment, slot, -, hSlot, hStep⟩ := h.exists_slot hVisits
  obtain rfl : slot = .opening driver := Option.some.inj (hSlot.symm.trans hDriver)
  rw [visit_opening hClose] at hStep
  obtain ⟨more, hBehind⟩ := reaches_behind hMatches (Frame.expand (driver.evaluate s.scope))
    (.range start (close + 1) stop :: rest) s.scope (s.text ++ fragment)
  exact ⟨_, hBehind.head hStep⟩

/-- **At every moment of every render the frames fit the sections.** Where a slot is visited,
the frames are those of the sections around it; a section that starts there gets to its end,
and whenever a render stands behind it, the frames are what they were in front of it. -/
theorem frames_fit_sections (fragments : List String) (slots : List Slot)
    (options : RenderOptions) {sections : SectionMap}
    (hLength : fragments.length = slots.length + 1)
    (hSections : ofSlots slots = .ok sections) :
    ∃ r, ofParts fragments slots options = .ok r ∧
      ∀ s start j stop rest, r.Reaches (r.start Scope.empty) s → s.Visits start j stop rest →
        (∃ fragment slot, slots[j]? = some slot ∧
            r.step s = some (r.visit start j stop ⟨rest, s.scope, s.text ++ fragment⟩ slot)) ∧
          Disciplined slots sections j s.scope ∧
          ∀ close, sections.endOf j = some close →
            (∃ text, r.Reaches s ⟨.range start (close + 1) stop :: rest, s.scope, text⟩) ∧
              ∀ s', r.Reaches (r.start Scope.empty) s' →
                s'.tasks = .range start (close + 1) stop :: rest → s'.scope = s.scope := by
  refine ⟨_, ofParts_eq_ok options hLength hSections, ?_⟩
  intro s start j stop rest hReaches hVisits
  have hStanding := standing_of_reaches hReaches
  have hWalk := hStanding.walk hVisits.tasks_eq
  obtain ⟨-, fragment, slot, -, hSlot, hStep⟩ := hStanding.exists_slot hVisits
  refine ⟨⟨fragment, slot, hSlot, hStep⟩, hWalk.disciplined hVisits.lt, fun close hClose => ?_⟩
  refine ⟨reaches_behind_section hStanding hVisits hClose, fun s' hReaches' hTasks => ?_⟩
  exact ((standing_of_reaches hReaches').walk hTasks).scope_unique hWalk

/-- In the first item of the first list of `nestedLoops`, slot 2 is visited inside the frames of
both loops. -/
theorem frames_fit_sections_nestedLoops :
    nestedLoops.fragments.length = nestedLoops.slots.length + 1 ∧
      ∃ r s rest, ofParts nestedLoops.fragments nestedLoops.slots {} = .ok r ∧
        r.Reaches (r.start Scope.empty) s ∧ s.Visits 2 2 4 rest ∧
        Disciplined nestedLoops.slots ⟨[some 4, some 3, none, none, none], 2⟩ 2 s.scope := by
  obtain ⟨r, hParts, hFit⟩ :=
    frames_fit_sections nestedLoops.fragments nestedLoops.slots {} rfl nestedLoops_sections
  obtain rfl := Except.ok.inj ((ofParts_eq_ok {} rfl nestedLoops_sections).symm.trans hParts)
  refine ⟨rfl, _, ⟨_, _, _⟩, _, hParts, .head rfl (.head rfl (.head rfl (.head rfl .refl))),
    ⟨rfl, by decide⟩, ?_⟩
  exact (hFit _ _ _ _ _ (.head rfl (.head rfl (.head rfl (.head rfl .refl))))
    ⟨rfl, by decide⟩).2.1

end Rendering

end Stencil
