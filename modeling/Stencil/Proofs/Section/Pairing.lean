import Stencil.Proofs.Section.Scan

/-!
# The section map

The sections of a list of slots pair up exactly when its markers are balanced, and then the
section map is their one pairing: it takes the starts onto the ends one to one, it knows
nothing else, and its sections never cross.

## Main results

* `exists_ofSlots_iff` — a list of slots has a section map exactly when it is balanced.
* `isMatching_of_ofSlots` — what the section map of a list is.
* `ofSlots_pairs_markers` — both together, for every list of slots.
-/

namespace Stencil.Section

/-- The section map is the pairing of the starts in `kinds` with the ends in `kinds`. -/
structure IsMatching (kinds : List SlotKind) (sections : SectionMap) : Prop where
  /-- The end of a start is the end that matches it. -/
  endOf_iff : ∀ s e, sections.endOf s = some e ↔ Matches kinds s e
  /-- Every start has an end. -/
  exists_end : ∀ s, kinds[s]? = some .sectionStart →
    ∃ e, kinds[e]? = some .sectionEnd ∧ sections.endOf s = some e
  /-- Every end has a start. -/
  exists_start : ∀ e, kinds[e]? = some .sectionEnd →
    ∃ s, kinds[s]? = some .sectionStart ∧ sections.endOf s = some e
  /-- No end has two starts. -/
  start_unique : ∀ s s' e, sections.endOf s = some e → sections.endOf s' = some e → s = s'
  /-- Nothing but a start has an end. -/
  endOf_eq_none : ∀ s, kinds[s]? ≠ some .sectionStart → sections.endOf s = none
  /-- Sections do not cross: the later of two is behind the other or inside it. -/
  disjoint_or_nested : ∀ s e s' e', sections.endOf s = some e → sections.endOf s' = some e' →
    s < s' → e < s' ∨ e' < e
  /-- The listed pairs are the starts and their ends. -/
  mem_pairs : ∀ s e, (s, e) ∈ sections.pairs ↔ sections.endOf s = some e
  /-- The pairs are listed in the order of the starts. -/
  pairs_sorted : sections.pairs.Pairwise fun p q => p.1 < q.1
  /-- The number of sections is the number of starts. -/
  length_eq_count : sections.length = kinds.count .sectionStart
  /-- The number of sections is the number of listed pairs. -/
  length_eq_pairs : sections.length = sections.pairs.length

variable {slots : List Slot}

theorem Opened.balanced {kinds : List SlotKind} (h : Opened kinds kinds.length []) :
    Balanced kinds :=
  balanced_iff_height.mpr ⟨h.nonneg, h.height_eq⟩

/-- Behind an end that nothing is open for, the list is below zero. -/
theorem Opened.not_balanced_of_end {kinds : List SlotKind} {i : Nat} (h : Opened kinds i [])
    (hEnd : kinds[i]? = some .sectionEnd) : ¬ Balanced kinds := by
  intro hBalanced
  have hNonneg := (balanced_iff_height.mp hBalanced).1 (i + 1)
    (List.getElem?_eq_some_iff.mp hEnd).1
  have hZero := h.height_eq
  rw [height_succ hEnd, hZero] at hNonneg
  simp [rise] at hNonneg

/-- A list with a start that is still open ends above zero. -/
theorem Opened.not_balanced_of_open {kinds : List SlotKind} {s : Nat} {outer : List Nat}
    (h : Opened kinds kinds.length (s :: outer)) : ¬ Balanced kinds := by
  intro hBalanced
  have hZero := (balanced_iff_height.mp hBalanced).2
  rw [h.height_eq, List.length_cons] at hZero
  omega

/-- The sections of a list of slots pair up exactly when its markers are balanced. -/
theorem exists_ofSlots_iff (slots : List Slot) :
    (∃ sections, ofSlots slots = .ok sections) ↔ Balanced (slots.map Slot.kind) := by
  have hLength : slots.length = (slots.map Slot.kind).length := by simp
  rcases ofSlots_cases slots with
    ⟨q, hOk, hq, hPosition, hStack⟩ | ⟨i, hError, hEnd, hOpened⟩ | ⟨s, outer, hError, hOpened⟩
  · have hOpened := hq.opened
    rw [hStack, hPosition, hLength] at hOpened
    exact ⟨fun _ => hOpened.balanced, fun _ => ⟨q.sections, hOk⟩⟩
  · constructor
    · rintro ⟨sections, hOk⟩
      simp [hError] at hOk
    · intro hBalanced
      exact absurd hBalanced (hOpened.not_balanced_of_end hEnd)
  · rw [hLength] at hOpened
    constructor
    · rintro ⟨sections, hOk⟩
      simp [hError] at hOk
    · intro hBalanced
      exact absurd hBalanced hOpened.not_balanced_of_open

theorem balanced_of_ofSlots {sections : SectionMap} (h : ofSlots slots = .ok sections) :
    Balanced (slots.map Slot.kind) :=
  (exists_ofSlots_iff slots).mp ⟨sections, h⟩

/-- A section map comes from a walk to the end of the slots that leaves nothing open. -/
theorem scanned_of_ofSlots {sections : SectionMap} (h : ofSlots slots = .ok sections) :
    ∃ q, Scanned (slots.map Slot.kind) q ∧ q.position = (slots.map Slot.kind).length ∧
      q.opened = [] ∧ q.sections = sections := by
  rw [List.length_map]
  rcases ofSlots_cases slots with
    ⟨q, hOk, hq, hPosition, hStack⟩ | ⟨i, hError, _⟩ | ⟨s, outer, hError, _⟩
  · exact ⟨q, hq, hPosition, hStack, Except.ok.inj (hOk.symm.trans h)⟩
  · simp [hError] at h
  · simp [hError] at h

theorem endOf_iff_matches {sections : SectionMap} (h : ofSlots slots = .ok sections)
    (s e : Nat) : sections.endOf s = some e ↔ Matches (slots.map Slot.kind) s e := by
  obtain ⟨q, hq, hPosition, -, rfl⟩ := scanned_of_ofSlots h
  rw [hq.endOf_iff, hPosition]
  constructor
  · exact And.left
  · intro hMatches
    exact ⟨hMatches, hMatches.end_lt_length⟩

theorem exists_matches_of_start {sections : SectionMap} (h : ofSlots slots = .ok sections)
    {s : Nat} (hStart : (slots.map Slot.kind)[s]? = some .sectionStart) :
    ∃ e, Matches (slots.map Slot.kind) s e := by
  obtain ⟨q, hq, hPosition, hStack, rfl⟩ := scanned_of_ofSlots h
  have hLt := hPosition ▸ (List.getElem?_eq_some_iff.mp hStart).1
  rcases hq.start_found s hLt hStart with hOpen | ⟨e, he⟩
  · simp [hStack] at hOpen
  · exact ⟨e, ((hq.endOf_iff s e).mp he).1⟩

theorem exists_matches_of_end {sections : SectionMap} (h : ofSlots slots = .ok sections)
    {e : Nat} (hEnd : (slots.map Slot.kind)[e]? = some .sectionEnd) :
    ∃ s, Matches (slots.map Slot.kind) s e := by
  obtain ⟨q, hq, hPosition, -, rfl⟩ := scanned_of_ofSlots h
  have hLt := hPosition ▸ (List.getElem?_eq_some_iff.mp hEnd).1
  obtain ⟨s, hs⟩ := hq.end_found e hLt hEnd
  exact ⟨s, ((hq.endOf_iff s e).mp hs).1⟩

/-- The section map of a list of slots is the pairing of its markers. -/
theorem isMatching_of_ofSlots {sections : SectionMap} (h : ofSlots slots = .ok sections) :
    IsMatching (slots.map Slot.kind) sections where
  endOf_iff := endOf_iff_matches h
  exists_end s hStart := by
    obtain ⟨e, hMatches⟩ := exists_matches_of_start h hStart
    exact ⟨e, hMatches.end_at, (endOf_iff_matches h s e).mpr hMatches⟩
  exists_start e hEnd := by
    obtain ⟨s, hMatches⟩ := exists_matches_of_end h hEnd
    exact ⟨s, hMatches.start_at, (endOf_iff_matches h s e).mpr hMatches⟩
  start_unique s s' e hs hs' := by
    rw [endOf_iff_matches h] at hs hs'
    exact hs.start_unique hs'
  endOf_eq_none s hNe := by
    apply Option.eq_none_iff_forall_ne_some.mpr
    intro e he
    exact hNe ((endOf_iff_matches h s e).mp he).start_at
  disjoint_or_nested s e s' e' he he' hLt := by
    rw [endOf_iff_matches h] at he he'
    exact he.disjoint_or_nested he' hLt
  mem_pairs _ _ := SectionMap.mem_pairs
  pairs_sorted := sections.pairs_sorted
  length_eq_count := by
    have hCount := (balanced_of_ofSlots h).count_eq
    obtain ⟨q, hq, hPosition, -, rfl⟩ := scanned_of_ofSlots h
    rw [hq.count_ends, hPosition, List.take_length, hCount]
  length_eq_pairs := by
    obtain ⟨q, hq, -, -, rfl⟩ := scanned_of_ofSlots h
    exact hq.count_pairs

/-- **Sections pair up like brackets.** A list of slots has a section map exactly when its
markers are balanced, and the map is then the pairing of its markers. -/
theorem ofSlots_pairs_markers (slots : List Slot) :
    ((∃ sections, ofSlots slots = .ok sections) ↔ Balanced (slots.map Slot.kind)) ∧
      ∀ sections, ofSlots slots = .ok sections →
        IsMatching (slots.map Slot.kind) sections :=
  ⟨exists_ofSlots_iff slots, fun _ => isMatching_of_ofSlots⟩

/-- A section with a value and a section inside, and one behind it. -/
theorem ofSlots_pairs_markers_nested :
    ofSlots [.opening (.value .null), .direct .null, .opening (.value .null), .closing,
        .closing, .opening (.value .null), .closing] =
        .ok ⟨[some 4, none, some 3, none, none, some 6, none], 3⟩ ∧
      IsMatching [.sectionStart, .direct, .sectionStart, .sectionEnd, .sectionEnd,
        .sectionStart, .sectionEnd] ⟨[some 4, none, some 3, none, none, some 6, none], 3⟩ :=
  ⟨rfl, (ofSlots_pairs_markers
    [.opening (.value .null), .direct .null, .opening (.value .null), .closing, .closing,
      .opening (.value .null), .closing]).2 _ rfl⟩

end Stencil.Section
