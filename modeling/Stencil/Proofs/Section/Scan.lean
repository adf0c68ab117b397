import Stencil.Proofs.Section.Matching

/-!
# Pairing up sections

The walk that pairs up the sections of a list keeps the starts that are still open. Between
one of them and the next everything is balanced, and so is everything behind the innermost:
that is what ties the stack, the map and the counter to the part of the list that has been
walked over. One slot keeps it, so the whole walk does.

## Main results

* `step_spec`, `scan_spec` — what one slot and the whole walk preserve, and where the walk
  stops early.
* `ofSlots_cases` — the three ways in which pairing up ends.
-/

namespace Stencil.Section

/-! ## Open starts -/

/-- The starts in `opened`, the innermost one first, are those that are still open before slot
`n`: what lies in front of the outermost, between one and the next, and behind the innermost is
balanced. -/
inductive Opened (kinds : List SlotKind) : Nat → List Nat → Prop
  | nil {n : Nat} (nonneg : ∀ m ≤ n, 0 ≤ height kinds m) (zero : height kinds n = 0) :
      Opened kinds n []
  | cons {n s : Nat} {outer : List Nat} (lt : s < n) (start_at : kinds[s]? = some .sectionStart)
      (before : Opened kinds s outer)
      (behind : ∀ m, s < m → m ≤ n → height kinds (s + 1) ≤ height kinds m)
      (back : height kinds n = height kinds (s + 1)) : Opened kinds n (s :: outer)

namespace Opened

variable {kinds : List SlotKind} {n : Nat} {opened : List Nat}

theorem extend (h : Opened kinds n opened) {n' : Nat} (hLe : n ≤ n')
    (hStretch : ∀ m, n < m → m ≤ n' → height kinds n ≤ height kinds m)
    (hBack : height kinds n' = height kinds n) : Opened kinds n' opened := by
  cases h with
  | nil nonneg zero =>
      apply Opened.nil
      · intro m hm
        by_cases hLt : n < m
        · exact zero ▸ hStretch m hLt hm
        · exact nonneg m (Nat.le_of_not_lt hLt)
      · exact hBack.trans zero
  | cons lt start_at before behind back =>
      apply Opened.cons (Nat.lt_of_lt_of_le lt hLe) start_at before
      · intro m hs hm
        by_cases hLt : n < m
        · exact back ▸ hStretch m hLt hm
        · exact behind m hs (Nat.le_of_not_lt hLt)
      · exact hBack.trans back

theorem skip (h : Opened kinds n opened) {kind : SlotKind} (hKind : kinds[n]? = some kind)
    (hMarker : kind.isMarker = false) : Opened kinds (n + 1) opened := by
  have hHeight := height_skip hKind hMarker
  apply h.extend (Nat.le_succ n) _ hHeight
  intro m hLt hLe
  have hEq : m = n + 1 := by omega
  exact hEq ▸ Int.le_of_eq hHeight.symm

theorem push (h : Opened kinds n opened) (hStart : kinds[n]? = some .sectionStart) :
    Opened kinds (n + 1) (n :: opened) := by
  apply Opened.cons (Nat.lt_succ_self n) hStart h _ rfl
  intro m hLt hLe
  have hEq : m = n + 1 := by omega
  exact hEq ▸ Int.le_refl _

/-- An end belongs to the innermost open start. -/
theorem matches_end {s : Nat} (h : Opened kinds n (s :: opened))
    (hEnd : kinds[n]? = some .sectionEnd) : Matches kinds s n := by
  cases h with
  | cons lt start_at _ behind back => exact .of_height start_at hEnd lt behind back

theorem pop {s : Nat} (h : Opened kinds n (s :: opened))
    (hEnd : kinds[n]? = some .sectionEnd) : Opened kinds (n + 1) opened := by
  have hMatches := h.matches_end hEnd
  cases h with
  | cons lt _ before _ _ =>
      apply before.extend (by omega) _ hMatches.height_behind
      intro m hLt hLe
      by_cases hInside : m ≤ n
      · exact Int.le_of_lt (hMatches.height_lt hLt hInside)
      · have hEq : m = n + 1 := by omega
        exact hEq ▸ Int.le_of_eq hMatches.height_behind.symm

/-- The height is the number of open starts. -/
theorem height_eq (h : Opened kinds n opened) : height kinds n = opened.length := by
  induction h with
  | nil _ zero => simpa using zero
  | cons _ start_at _ _ back ih =>
      rw [back, height_succ start_at, ih]
      simp [rise]

/-- Up to an open start or the next slot the height never falls below zero. -/
theorem nonneg (h : Opened kinds n opened) : ∀ m ≤ n, 0 ≤ height kinds m := by
  induction h with
  | nil nonneg _ => exact nonneg
  | @cons n s outer _ start_at before behind _ ih =>
      intro m hm
      by_cases hLt : s < m
      · have hBehind := behind m hLt hm
        have hStart := height_succ start_at
        have hBefore := ih s (Nat.le_refl s)
        simp only [rise] at hStart
        omega
      · exact ih m (Nat.le_of_not_lt hLt)

end Opened

/-! ## The walk -/

/-- What a walk over `kinds` has found out so far. -/
structure Scanned (kinds : List SlotKind) (p : Progress) : Prop where
  /-- The stack holds the starts that are still open. -/
  opened : Opened kinds p.position p.opened
  /-- The walk stays inside the list. -/
  position_le : p.position ≤ kinds.length
  /-- There is room for the end of every start. -/
  length_ends : p.sections.ends.length = kinds.length
  /-- The map holds the matching markers walked over. -/
  endOf_iff : ∀ s e, p.sections.endOf s = some e ↔ Matches kinds s e ∧ e < p.position
  /-- Every start walked over is open or has an end. -/
  start_found : ∀ s < p.position, kinds[s]? = some .sectionStart →
    s ∈ p.opened ∨ ∃ e, p.sections.endOf s = some e
  /-- Every end walked over has a start. -/
  end_found : ∀ e < p.position, kinds[e]? = some .sectionEnd →
    ∃ s, p.sections.endOf s = some e
  /-- The counter counts the ends walked over. -/
  count_ends : p.sections.length = (kinds.take p.position).count .sectionEnd
  /-- The counter counts the pairs of the map. -/
  count_pairs : p.sections.length = p.sections.pairs.length

theorem scanned_start (kinds : List SlotKind) :
    Scanned kinds (Progress.start kinds.length) where
  opened := .nil (fun m hm => by simp [Nat.le_zero.mp hm]) (by simp [Progress.start])
  position_le := Nat.zero_le _
  length_ends := by simp [Progress.start, SectionMap.empty]
  endOf_iff := by simp [Progress.start]
  start_found := by simp [Progress.start]
  end_found := by simp [Progress.start]
  count_ends := by simp [Progress.start, SectionMap.empty, SectionMap.length]
  count_pairs := by
    simp [Progress.start, SectionMap.length_pairs, SectionMap.empty, SectionMap.length,
      List.countP_replicate]

section Step

variable {kinds : List SlotKind} {p : Progress}

/-- What is known behind a slot that is no end. -/
theorem Scanned.advance (h : Scanned kinds p) {kind : SlotKind} {opened : List Nat}
    (hKind : kinds[p.position]? = some kind) (hNe : kind ≠ .sectionEnd)
    (hOpened : Opened kinds (p.position + 1) opened)
    (hKept : ∀ s ∈ p.opened, s ∈ opened)
    (hStart : kind = .sectionStart → p.position ∈ opened) :
    Scanned kinds ⟨p.position + 1, opened, p.sections⟩ where
  opened := hOpened
  position_le := (List.getElem?_eq_some_iff.mp hKind).1
  length_ends := h.length_ends
  endOf_iff s e := by
    rw [h.endOf_iff]
    apply and_congr_right
    intro hMatches
    have hNe' : e ≠ p.position := by
      rintro rfl
      exact hNe (Option.some.inj (hKind.symm.trans hMatches.end_at))
    show e < p.position ↔ e < p.position + 1
    omega
  start_found s hLt hAt := by
    rcases Nat.lt_succ_iff_lt_or_eq.mp hLt with hBefore | rfl
    · exact (h.start_found s hBefore hAt).imp_left (hKept s)
    · exact Or.inl (hStart (Option.some.inj (hKind.symm.trans hAt)))
  end_found e hLt hAt := by
    rcases Nat.lt_succ_iff_lt_or_eq.mp hLt with hBefore | rfl
    · exact h.end_found e hBefore hAt
    · exact absurd (Option.some.inj (hKind.symm.trans hAt)) hNe
  count_ends := by
    rw [h.count_ends, List.take_add_one, hKind, List.count_append]
    simp [hNe]
  count_pairs := h.count_pairs

/-- What is known behind an end. -/
theorem Scanned.close (h : Scanned kinds p) {s : Nat} {outer : List Nat}
    (hEnd : kinds[p.position]? = some .sectionEnd) (hStack : p.opened = s :: outer) :
    Scanned kinds ⟨p.position + 1, outer, p.sections.add s p.position⟩ := by
  have hOpened : Opened kinds p.position (s :: outer) := hStack ▸ h.opened
  have hMatches := hOpened.matches_end hEnd
  have hRoom : s < p.sections.ends.length := by
    rw [h.length_ends]
    exact Nat.lt_trans hMatches.lt hMatches.end_lt_length
  have hNone : p.sections.endOf s = none := by
    apply Option.eq_none_iff_forall_ne_some.mpr
    intro e he
    obtain ⟨hFound, hLt⟩ := (h.endOf_iff s e).mp he
    exact Nat.lt_irrefl _ (hMatches.end_unique hFound ▸ hLt)
  refine
    { opened := hOpened.pop hEnd
      position_le := hMatches.end_lt_length
      length_ends := ?_
      endOf_iff := fun t e => ?_
      start_found := fun t hLt hAt => ?_
      end_found := fun e hLt hAt => ?_
      count_ends := ?_
      count_pairs := ?_ }
  · simpa [SectionMap.add] using h.length_ends
  · rw [SectionMap.endOf_add hRoom]
    by_cases hEq : t = s
    · rw [if_pos hEq, hEq]
      constructor
      · rintro ⟨⟩
        exact ⟨hMatches, Nat.lt_succ_self _⟩
      · intro hFound
        rw [hMatches.end_unique hFound.1]
    · rw [if_neg hEq, h.endOf_iff]
      apply and_congr_right
      intro hFound
      have hNe : e ≠ p.position := by
        rintro rfl
        exact hEq (hFound.start_unique hMatches)
      show e < p.position ↔ e < p.position + 1
      omega
  · simp only [SectionMap.endOf_add hRoom]
    by_cases hEq : t = s
    · exact Or.inr ⟨p.position, by simp [hEq]⟩
    · simp only [if_neg hEq]
      rcases Nat.lt_succ_iff_lt_or_eq.mp hLt with hBefore | rfl
      · apply (h.start_found t hBefore hAt).imp_left
        intro hMem
        rw [hStack] at hMem
        exact (List.mem_cons.mp hMem).resolve_left hEq
      · rw [hEnd] at hAt
        cases hAt
  · simp only [SectionMap.endOf_add hRoom]
    rcases Nat.lt_succ_iff_lt_or_eq.mp hLt with hBefore | rfl
    · obtain ⟨t, ht⟩ := h.end_found e hBefore hAt
      have hNe : t ≠ s := by
        rintro rfl
        rw [hNone] at ht
        cases ht
      exact ⟨t, (if_neg hNe).trans ht⟩
    · exact ⟨s, if_pos rfl⟩
  · have hCount := h.count_ends
    simp only [SectionMap.length, SectionMap.add] at hCount ⊢
    rw [hCount, List.take_add_one, hEnd, List.count_append]
    rfl
  · rw [SectionMap.length_pairs_add hRoom hNone, ← h.count_pairs]
    rfl

/-- **One slot.** The walk keeps what it knows, or stops at an end while nothing is open. -/
theorem step_spec (h : Scanned kinds p) {kind : SlotKind}
    (hKind : kinds[p.position]? = some kind) :
    (∃ q, step p kind = .ok q ∧ Scanned kinds q ∧ q.position = p.position + 1) ∨
      (step p kind = .error (.unmatchedEnd p.position) ∧ kind = .sectionEnd ∧
        p.opened = []) := by
  cases kind with
  | sectionStart =>
      exact .inl ⟨_, rfl, h.advance hKind (by decide) (h.opened.push hKind)
        (fun s hs => List.mem_cons_of_mem _ hs) (fun _ => List.mem_cons_self), rfl⟩
  | sectionEnd =>
      cases hStack : p.opened with
      | nil => exact .inr ⟨by simp [step, hStack], rfl, rfl⟩
      | cons s outer => exact .inl ⟨_, by simp [step, hStack], h.close hKind hStack, rfl⟩
  | direct =>
      exact .inl ⟨_, rfl, h.advance hKind (by decide) (h.opened.skip hKind rfl)
        (fun s hs => hs) nofun, rfl⟩
  | accessor =>
      exact .inl ⟨_, rfl, h.advance hKind (by decide) (h.opened.skip hKind rfl)
        (fun s hs => hs) nofun, rfl⟩

end Step

/-- **The whole walk.** It gets to the end of the list, or stops at an end before which nothing
is open. -/
theorem scan_spec {kinds : List SlotKind} (rest : List SlotKind) {p : Progress}
    (h : Scanned kinds p) (hRest : kinds.drop p.position = rest) :
    (∃ q, scan p rest = .ok q ∧ Scanned kinds q ∧ q.position = kinds.length) ∨
      ∃ i, scan p rest = .error (.unmatchedEnd i) ∧ kinds[i]? = some .sectionEnd ∧
        Opened kinds i [] := by
  induction rest generalizing p with
  | nil =>
      exact .inl ⟨p, rfl, h, Nat.le_antisymm h.position_le (List.drop_eq_nil_iff.mp hRest)⟩
  | cons kind rest ih =>
      have hKind : kinds[p.position]? = some kind := by
        rw [← List.head?_drop, hRest]
        rfl
      have hNext : kinds.drop (p.position + 1) = rest := by
        rw [← List.drop_drop, hRest]
        rfl
      rcases step_spec h hKind with ⟨q, hStep, hq, hPosition⟩ | ⟨hStep, rfl, hStack⟩
      · simp only [scan, hStep]
        exact ih hq (hPosition ▸ hNext)
      · simp only [scan, hStep]
        exact .inr ⟨p.position, rfl, hKind, hStack ▸ h.opened⟩

/-- The three ways in which pairing up ends: with a map, at an end that nothing is open for, or
with starts that are still open. -/
theorem ofSlots_cases (slots : List Slot) :
    (∃ q, ofSlots slots = .ok q.sections ∧ Scanned (slots.map Slot.kind) q ∧
        q.position = slots.length ∧ q.opened = []) ∨
      (∃ i, ofSlots slots = .error (.unmatchedEnd i) ∧
        (slots.map Slot.kind)[i]? = some .sectionEnd ∧ Opened (slots.map Slot.kind) i []) ∨
      ∃ s outer, ofSlots slots = .error (.unmatchedStart s) ∧
        Opened (slots.map Slot.kind) slots.length (s :: outer) := by
  have hStart := scanned_start (slots.map Slot.kind)
  rw [List.length_map] at hStart
  rcases scan_spec (slots.map Slot.kind) hStart rfl with
    ⟨q, hScan, hq, hPosition⟩ | ⟨i, hScan, hEnd, hOpened⟩
  · rw [List.length_map] at hPosition
    cases hStack : q.opened with
    | nil =>
        have hOk : ofSlots slots = .ok q.sections := by
          simp [ofSlots, hScan, Progress.finish, hStack]
        exact .inl ⟨q, hOk, hq, hPosition, hStack⟩
    | cons s outer =>
        have hError : ofSlots slots = .error (.unmatchedStart s) := by
          simp [ofSlots, hScan, Progress.finish, hStack]
        have hOpened := hq.opened
        rw [hStack, hPosition] at hOpened
        exact .inr (.inr ⟨s, outer, hError, hOpened⟩)
  · have hError : ofSlots slots = .error (.unmatchedEnd i) := by
      simp [ofSlots, hScan]
    exact .inr (.inl ⟨i, hError, hEnd, hOpened⟩)

end Stencil.Section
