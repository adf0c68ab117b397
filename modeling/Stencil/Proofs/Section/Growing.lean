import Stencil.Proofs.Section.Enclosing
import Stencil.Proofs.Section.Unmatched

/-!
# Lists of slots that grow

What is known about the front of a list of slots stays known when the list grows. A section of
the front keeps its end, a start that is open behind the front is still there for the slots that
follow, and an end without a start cannot be mended any more. So the sections of a list are
determined by those of its two parts: a walk over the second part is the walk over that part
alone, with everything further back and the starts that the first part has left open underneath.

## Main results

* `Opened.grow`, `Opened.append` — which starts are open when a list grows, and behind a second
  list that is walked over with starts left open by the first.
* `matches_append_iff`, `pairs_append` — the sections of two lists, one behind the other.
* `leftOver_of_opened` — what becomes of the starts that are left over as ends are appended.
* `ofSlots_append_by_parts` — all of it, for any two lists of slots.
-/

namespace Stencil

/-- The same fault with `count` more slots in front. -/
def TemplateError.shift (count : Nat) : TemplateError → TemplateError
  | .unmatchedEnd position => .unmatchedEnd (count + position)
  | .unmatchedStart position => .unmatchedStart (count + position)
  | .arityMismatch fragments slots => .arityMismatch fragments slots
  | .options fault => .options fault

namespace Section

variable {kinds more : List SlotKind} {n : Nat} {opened outer : List Nat}

/-! ## Open starts -/

namespace Opened

/-- The slots behind a place make no difference to the starts that are open there. -/
theorem grow (h : Opened kinds n opened) (hLe : n ≤ kinds.length) (more : List SlotKind) :
    Opened (kinds ++ more) n opened := by
  induction h with
  | nil nonneg zero =>
      apply Opened.nil
      · intro m hm
        rw [height_append_of_le (by omega)]
        exact nonneg m hm
      · rw [height_append_of_le hLe]
        exact zero
  | cons lt start_at before behind back ih =>
      apply Opened.cons lt
      · rw [List.getElem?_append_left (by omega)]
        exact start_at
      · exact ih (by omega)
      · intro m hs hm
        rw [height_append_of_le (by omega), height_append_of_le (by omega)]
        exact behind m hs hm
      · rw [height_append_of_le hLe, height_append_of_le (by omega)]
        exact back

/-- A walk over a second list opens and closes its own starts on top of those that the first
list has left open. -/
theorem append (h : Opened kinds kinds.length outer) (h' : Opened more n opened) :
    Opened (kinds ++ more) (kinds.length + n) (opened.map (kinds.length + ·) ++ outer) := by
  induction h' with
  | @nil n nonneg zero =>
      apply (h.grow (Nat.le_refl _) more).extend (Nat.le_add_right _ n)
      · intro m hLt hm
        obtain ⟨m, rfl⟩ := Nat.exists_eq_add_of_lt hLt
        have hAbove := nonneg (m + 1) (by omega)
        rw [Nat.add_assoc, height_append_add, height_append_of_le (Nat.le_refl _)]
        omega
      · rw [height_append_add, zero, height_append_of_le (Nat.le_refl _), Int.add_zero]
  | @cons n s outer lt start_at before behind back ih =>
      apply Opened.cons (Nat.add_lt_add_left lt kinds.length)
      · rw [getElem?_append_add]
        exact start_at
      · exact ih
      · intro m hs hm
        obtain ⟨m, rfl⟩ := Nat.exists_eq_add_of_lt hs
        have hAbove := behind (s + m + 1) (by omega) (by omega)
        rw [Nat.add_assoc, height_append_add, Nat.add_assoc, Nat.add_assoc, height_append_add]
        rw [Nat.add_assoc] at hAbove
        omega
      · rw [height_append_add, Nat.add_assoc, height_append_add, back]

/-- Open starts are listed from the innermost one outwards. -/
theorem decreasing (h : Opened kinds n opened) : (n :: opened).Pairwise (· > ·) := by
  induction h with
  | nil _ _ => exact List.pairwise_singleton _ _
  | cons lt _ _ _ _ ih =>
      apply List.pairwise_cons.mpr
      constructor
      · intro s hs
        rcases List.mem_cons.mp hs with rfl | hOuter
        · exact lt
        · exact Nat.lt_trans ((List.pairwise_cons.mp ih).1 s hOuter) lt
      · exact ih

end Opened

/-- Balanced markers leave no start open. -/
theorem opened_of_balanced (h : Balanced kinds) : Opened kinds kinds.length [] := by
  obtain ⟨hNonneg, hZero⟩ := balanced_iff_height.mp h
  exact .nil hNonneg hZero

/-! ## Open starts and what pairing up gives -/

section Outcomes

variable {slots : List Slot}

theorem opened_of_ofSlots {sections : SectionMap} (h : ofSlots slots = .ok sections) :
    Opened (slots.map Slot.kind) slots.length [] := by
  have hOpened := opened_of_balanced (balanced_of_ofSlots h)
  rwa [List.length_map] at hOpened

theorem opened_of_unmatchedEnd {i : Nat} (h : ofSlots slots = .error (.unmatchedEnd i)) :
    (slots.map Slot.kind)[i]? = some .sectionEnd ∧ Opened (slots.map Slot.kind) i [] := by
  rcases ofSlots_cases slots with
    ⟨q, hOk, -⟩ | ⟨i', hError, hEnd, hOpened⟩ | ⟨s, outer, hError, -⟩
  · rw [hOk] at h
    cases h
  · obtain rfl : i' = i := by simpa using hError.symm.trans h
    exact ⟨hEnd, hOpened⟩
  · rw [hError] at h
    cases h

theorem opened_of_unmatchedStart {s : Nat} (h : ofSlots slots = .error (.unmatchedStart s)) :
    ∃ outer, Opened (slots.map Slot.kind) slots.length (s :: outer) := by
  rcases ofSlots_cases slots with
    ⟨q, hOk, -⟩ | ⟨i, hError, -⟩ | ⟨s', outer, hError, hOpened⟩
  · rw [hOk] at h
    cases h
  · rw [hError] at h
    cases h
  · obtain rfl : s' = s := by simpa using hError.symm.trans h
    exact ⟨outer, hOpened⟩

theorem ofSlots_of_opened_nil (hLength : n = slots.length)
    (h : Opened (slots.map Slot.kind) n []) : ∃ sections, ofSlots slots = .ok sections := by
  rw [hLength, ← List.length_map (f := Slot.kind)] at h
  exact (exists_ofSlots_iff slots).mpr h.balanced

theorem ofSlots_of_opened_end {i : Nat} (h : Opened (slots.map Slot.kind) i [])
    (hEnd : (slots.map Slot.kind)[i]? = some .sectionEnd) :
    ofSlots slots = .error (.unmatchedEnd i) :=
  ofSlots_eq_error_iff.mpr (h.unmatched_end hEnd)

theorem ofSlots_of_opened_start {s : Nat} (hLength : n = slots.length)
    (h : Opened (slots.map Slot.kind) n (s :: outer)) :
    ofSlots slots = .error (.unmatchedStart s) := by
  rw [hLength, ← List.length_map (f := Slot.kind)] at h
  exact ofSlots_eq_error_iff.mpr h.unmatched_start

end Outcomes

/-! ## Sections of two lists -/

namespace Matches

variable {s e : Nat}

/-- A section of the first list. -/
theorem grow (h : Matches kinds s e) (more : List SlotKind) : Matches (kinds ++ more) s e := by
  have hEnd := h.end_lt_length
  have hStart := h.lt
  obtain ⟨hInside, hBack⟩ := h.height_inside
  apply Matches.of_height
  · rw [List.getElem?_append_left (by omega)]
    exact h.start_at
  · rw [List.getElem?_append_left hEnd]
    exact h.end_at
  · exact h.lt
  · intro m hs hm
    rw [height_append_of_le (by omega), height_append_of_le (by omega)]
    exact hInside m hs hm
  · rw [height_append_of_le (by omega), height_append_of_le (by omega)]
    exact hBack

/-- A section of the second list. -/
theorem shift (h : Matches more s e) (kinds : List SlotKind) :
    Matches (kinds ++ more) (kinds.length + s) (kinds.length + e) := by
  obtain ⟨hInside, hBack⟩ := h.height_inside
  apply Matches.of_height
  · rw [getElem?_append_add]
    exact h.start_at
  · rw [getElem?_append_add]
    exact h.end_at
  · exact Nat.add_lt_add_left h.lt kinds.length
  · intro m hs hm
    obtain ⟨m, rfl⟩ := Nat.exists_eq_add_of_le (show kinds.length ≤ m by omega)
    rw [Nat.add_assoc, height_append_add, height_append_add]
    have hAbove := hInside m (by omega) (by omega)
    omega
  · rw [Nat.add_assoc, height_append_add, height_append_add, hBack]

end Matches

section Pairs

variable {slots rest : List Slot} {first second whole : SectionMap}
  (hFirst : ofSlots slots = .ok first) (hSecond : ofSlots rest = .ok second)

include hFirst hSecond

/-- Every section of two lists, one behind the other, is a section of one of them. -/
theorem matches_append_iff {s e : Nat} :
    Matches ((slots ++ rest).map Slot.kind) s e ↔
      Matches (slots.map Slot.kind) s e ∨
        ∃ s' e', Matches (rest.map Slot.kind) s' e' ∧ s = slots.length + s' ∧
          e = slots.length + e' := by
  rw [List.map_append]
  constructor
  · intro h
    -- the start has an end in its own list, and no other end in the whole
    by_cases hLt : s < (slots.map Slot.kind).length
    · have hStart := h.start_at
      rw [List.getElem?_append_left hLt] at hStart
      obtain ⟨e', hMatches⟩ := exists_matches_of_start hFirst hStart
      obtain rfl := h.end_unique (hMatches.grow _)
      exact .inl hMatches
    · obtain ⟨s', rfl⟩ := Nat.exists_eq_add_of_le (Nat.le_of_not_lt hLt)
      have hStart := h.start_at
      rw [getElem?_append_add] at hStart
      obtain ⟨e', hMatches⟩ := exists_matches_of_start hSecond hStart
      obtain rfl := h.end_unique (hMatches.shift _)
      rw [List.length_map]
      exact .inr ⟨s', e', hMatches, rfl, rfl⟩
  · rintro (h | ⟨s', e', h, rfl, rfl⟩)
    · exact h.grow _
    · have hShift := h.shift (slots.map Slot.kind)
      rwa [List.length_map] at hShift

/-- The pairs of two lists, one behind the other. -/
theorem pairs_append (hWhole : ofSlots (slots ++ rest) = .ok whole) :
    whole.pairs = first.pairs ++
      second.pairs.map fun p => (slots.length + p.1, slots.length + p.2) := by
  apply eq_of_sorted whole.pairs_sorted
  · apply List.pairwise_append.mpr
    refine ⟨first.pairs_sorted, ?_, ?_⟩
    · apply List.pairwise_map.mpr
      exact second.pairs_sorted.imp fun hLt => Nat.add_lt_add_left hLt slots.length
    · rintro ⟨s, e⟩ hMem q hq
      obtain ⟨p, -, rfl⟩ := List.mem_map.mp hq
      rw [SectionMap.mem_pairs, endOf_iff_matches hFirst] at hMem
      have hEnd := hMem.end_lt_length
      rw [List.length_map] at hEnd
      exact Nat.lt_add_right p.1 (Nat.lt_trans hMem.lt hEnd)
  · rintro ⟨s, e⟩
    rw [SectionMap.mem_pairs, endOf_iff_matches hWhole, matches_append_iff hFirst hSecond,
      List.mem_append, List.mem_map, SectionMap.mem_pairs, endOf_iff_matches hFirst]
    apply or_congr_right
    constructor
    · rintro ⟨s', e', hMatches, rfl, rfl⟩
      have hMem := (endOf_iff_matches hSecond s' e').mpr hMatches
      exact ⟨(s', e'), SectionMap.mem_pairs.mpr hMem, rfl⟩
    · rintro ⟨⟨s', e'⟩, hMem, hEq⟩
      obtain ⟨rfl, rfl⟩ := Prod.mk.inj hEq
      rw [SectionMap.mem_pairs, endOf_iff_matches hSecond] at hMem
      exact ⟨s', e', hMem, rfl, rfl⟩

end Pairs

/-! ## Starts that are left over -/

section Ends

variable {slots : List Slot} {count m : Nat}

/-- The ends that are appended stand behind the other slots. -/
theorem kind_of_appended (hLt : m < count) :
    ((slots ++ List.replicate count Slot.closing).map Slot.kind)[slots.length + m]? =
      some .sectionEnd := by
  rw [List.getElem?_map, getElem?_append_add, List.getElem?_replicate_of_lt hLt]
  rfl

/-- Each end that is appended closes the innermost of the starts that are still open. -/
theorem Opened.append_ends (h : Opened (slots.map Slot.kind) slots.length opened)
    (hCount : m ≤ count) (hm : m ≤ opened.length) :
    Opened ((slots ++ List.replicate count Slot.closing).map Slot.kind) (slots.length + m)
      (opened.drop m) := by
  induction m with
  | zero =>
      rw [List.map_append]
      exact h.grow (by simp) _
  | succ m ih =>
      have hBefore := ih (by omega) (by omega)
      rw [List.drop_eq_getElem_cons hm] at hBefore
      exact hBefore.pop (kind_of_appended hCount)

end Ends

/-- `starts` are the starts of `slots` that are left over, the innermost one first. Ends that
are appended close them one after the other. -/
structure LeftOver (slots : List Slot) (starts : List Nat) : Prop where
  /-- There are as many as there are more starts than ends. -/
  count_eq : (slots.map Slot.kind).count .sectionStart =
    (slots.map Slot.kind).count .sectionEnd + starts.length
  /-- Each stands in front of the one before it. -/
  decreasing : starts.Pairwise (· > ·)
  /-- With too few ends the next start is to blame. -/
  too_few : ∀ count s, starts[count]? = some s →
    ofSlots (slots ++ List.replicate count .closing) = .error (.unmatchedStart s)
  /-- With an end for each start all sections pair up, the first of the starts with the first
  of the ends and so on. -/
  enough : ∃ sections,
    ofSlots (slots ++ List.replicate starts.length .closing) = .ok sections ∧
      ∀ m s, starts[m]? = some s → sections.endOf s = some (slots.length + m)
  /-- With too many ends the first that has no start is to blame. -/
  too_many : ∀ count, starts.length < count →
    ofSlots (slots ++ List.replicate count .closing) =
      .error (.unmatchedEnd (slots.length + starts.length))

/-- With an end for each start that is open, all sections pair up. -/
theorem exists_ofSlots_append_ends {slots : List Slot}
    (h : Opened (slots.map Slot.kind) slots.length opened) :
    ∃ sections, ofSlots (slots ++ List.replicate opened.length .closing) = .ok sections ∧
      ∀ m s, opened[m]? = some s → sections.endOf s = some (slots.length + m) := by
  have hClosed := h.append_ends (Nat.le_refl _) (Nat.le_refl _)
  rw [List.drop_length] at hClosed
  obtain ⟨sections, hSections⟩ := ofSlots_of_opened_nil (by simp) hClosed
  refine ⟨sections, hSections, fun m s hs => ?_⟩
  obtain ⟨hLt, rfl⟩ := List.getElem?_eq_some_iff.mp hs
  have hInner := h.append_ends (Nat.le_of_lt hLt) (Nat.le_of_lt hLt)
  rw [List.drop_eq_getElem_cons hLt] at hInner
  exact (endOf_iff_matches hSections _ _).mpr (hInner.matches_end (kind_of_appended hLt))

/-- The starts that a list leaves open are left over. -/
theorem leftOver_of_opened {slots : List Slot}
    (h : Opened (slots.map Slot.kind) slots.length opened) : LeftOver slots opened where
  count_eq := by
    have hHeight := h.height_eq
    rw [height, List.take_of_length_le (by simp)] at hHeight
    omega
  decreasing := (List.pairwise_cons.mp h.decreasing).2
  too_few count s hs := by
    obtain ⟨hLt, rfl⟩ := List.getElem?_eq_some_iff.mp hs
    have hOpened := h.append_ends (Nat.le_refl count) (Nat.le_of_lt hLt)
    rw [List.drop_eq_getElem_cons hLt] at hOpened
    exact ofSlots_of_opened_start (by simp) hOpened
  enough := exists_ofSlots_append_ends h
  too_many count hCount := by
    have hOpened := h.append_ends (Nat.le_of_lt hCount) (Nat.le_refl _)
    rw [List.drop_length] at hOpened
    exact ofSlots_of_opened_end hOpened (kind_of_appended hCount)

/-! ## Two lists of slots -/

section Parts

variable {slots rest : List Slot}

/-- Starts that are open behind two lists of slots, one behind the other. -/
theorem Opened.append_slots (h : Opened (slots.map Slot.kind) slots.length outer)
    (h' : Opened (rest.map Slot.kind) n opened) :
    Opened ((slots ++ rest).map Slot.kind) (slots.length + n)
      (opened.map (slots.length + ·) ++ outer) := by
  rw [← List.length_map (f := Slot.kind)] at h
  have hBoth := h.append h'
  rwa [← List.map_append, List.length_map] at hBoth

/-- Behind slots whose sections pair up, other slots are refused for the same reason as alone. -/
theorem ofSlots_append_of_error (h : Opened (slots.map Slot.kind) slots.length [])
    {e : TemplateError} (hError : ofSlots rest = .error e) :
    ofSlots (slots ++ rest) = .error (e.shift slots.length) := by
  rcases ofSlots_cases rest with
    ⟨q, hOk, -⟩ | ⟨i, hError', hEnd, hOpened⟩ | ⟨s, outer, hError', hOpened⟩
  · rw [hOk] at hError
    cases hError
  · obtain rfl := Except.error.inj (hError'.symm.trans hError)
    apply ofSlots_of_opened_end (h.append_slots hOpened)
    have hBehind := getElem?_append_add (slots.map Slot.kind) (rest.map Slot.kind) i
    rw [List.length_map] at hBehind
    rw [List.map_append, hBehind]
    exact hEnd
  · obtain rfl := Except.error.inj (hError'.symm.trans hError)
    exact ofSlots_of_opened_start (by simp) (h.append_slots hOpened)

/-- Slots whose sections pair up, one list behind the other. -/
theorem exists_ofSlots_append {first second : SectionMap} (hFirst : ofSlots slots = .ok first)
    (hSecond : ofSlots rest = .ok second) :
    ∃ whole, ofSlots (slots ++ rest) = .ok whole ∧
      whole.pairs = first.pairs ++
        second.pairs.map fun p => (slots.length + p.1, slots.length + p.2) := by
  have hBoth := (opened_of_ofSlots hFirst).append_slots (opened_of_ofSlots hSecond)
  obtain ⟨whole, hWhole⟩ := ofSlots_of_opened_nil (by simp) hBoth
  exact ⟨whole, hWhole, pairs_append hFirst hSecond hWhole⟩

end Parts

/-- **The sections of a list are determined by those of its parts.** Behind a list whose sections
pair up, other slots have the sections, or the fault, that they have alone. An end without a
start stays the fault whatever follows. A start that is left over stays the fault behind balanced
slots, and ends that are appended then close the starts that are left over, one after the
other. -/
theorem ofSlots_append_by_parts (slots rest : List Slot) :
    (∀ first, ofSlots slots = .ok first →
        ((∃ whole, ofSlots (slots ++ rest) = .ok whole) ↔
            ∃ second, ofSlots rest = .ok second) ∧
          (∀ second, ofSlots rest = .ok second →
            ∃ whole, ofSlots (slots ++ rest) = .ok whole ∧
              whole.pairs = first.pairs ++
                second.pairs.map fun p => (slots.length + p.1, slots.length + p.2)) ∧
          ∀ e, ofSlots rest = .error e →
            ofSlots (slots ++ rest) = .error (e.shift slots.length)) ∧
      (∀ i, ofSlots slots = .error (.unmatchedEnd i) →
        ofSlots (slots ++ rest) = .error (.unmatchedEnd i)) ∧
      ∀ s, ofSlots slots = .error (.unmatchedStart s) → Balanced (rest.map Slot.kind) →
        ofSlots (slots ++ rest) = .error (.unmatchedStart s) ∧
          ∃ starts, starts.head? = some s ∧ LeftOver (slots ++ rest) starts := by
  refine ⟨fun first hFirst => ?_, fun i hError => ?_, fun s hError hBalanced => ?_⟩
  · have hRefused : ∀ e, ofSlots rest = .error e →
        ofSlots (slots ++ rest) = .error (e.shift slots.length) := fun e hError =>
      ofSlots_append_of_error (opened_of_ofSlots hFirst) hError
    refine ⟨⟨?_, ?_⟩, fun second hSecond => exists_ofSlots_append hFirst hSecond, hRefused⟩
    · rintro ⟨whole, hWhole⟩
      cases hRest : ofSlots rest with
      | ok second => exact ⟨second, rfl⟩
      | error e =>
          rw [hRefused e hRest] at hWhole
          cases hWhole
    · rintro ⟨second, hSecond⟩
      obtain ⟨whole, hWhole, -⟩ := exists_ofSlots_append hFirst hSecond
      exact ⟨whole, hWhole⟩
  · obtain ⟨hEnd, hOpened⟩ := opened_of_unmatchedEnd hError
    have hLt := (List.getElem?_eq_some_iff.mp hEnd).1
    apply ofSlots_of_opened_end
    · rw [List.map_append]
      exact hOpened.grow (Nat.le_of_lt hLt) _
    · rw [List.map_append, List.getElem?_append_left hLt]
      exact hEnd
  · obtain ⟨outer, hOpened⟩ := opened_of_unmatchedStart hError
    have hBehind := opened_of_balanced hBalanced
    rw [List.length_map] at hBehind
    have hBoth := hOpened.append_slots hBehind
    rw [← List.length_append, List.map_nil, List.nil_append] at hBoth
    exact ⟨ofSlots_of_opened_start rfl hBoth, s :: outer, rfl, leftOver_of_opened hBoth⟩

/-- Slots behind a section, and two starts that are left over behind each other. -/
theorem ofSlots_append_by_parts_leftOver :
    ofSlots [.opening (.value .null), .closing] = .ok ⟨[some 1, none], 1⟩ ∧
      ofSlots [.closing, .opening (.value .null)] = .error (.unmatchedEnd 0) ∧
      ofSlots [.opening (.value .null), .closing, .closing, .opening (.value .null)] =
        .error (.unmatchedEnd 2) ∧
      ofSlots [.opening (.value .null), .direct .null, .opening (.value .null)] =
        .error (.unmatchedStart 2) ∧
      Balanced ([Slot.opening (.value .null), .closing].map Slot.kind) ∧
      ∃ starts, starts.head? = some 2 ∧
        LeftOver [.opening (.value .null), .direct .null, .opening (.value .null),
          .opening (.value .null), .closing] starts := by
  have hSection : ofSlots [.opening (.value .null), .closing] = .ok ⟨[some 1, none], 1⟩ := rfl
  have hBalanced := balanced_of_ofSlots hSection
  have hEnd : ofSlots [.closing, .opening (.value .null)] = .error (.unmatchedEnd 0) := rfl
  have hStarts : ofSlots [.opening (.value .null), .direct .null, .opening (.value .null)] =
    .error (.unmatchedStart 2) := rfl
  exact ⟨hSection, hEnd, ((ofSlots_append_by_parts _ _).1 _ hSection).2.2 _ hEnd, hStarts,
    hBalanced, ((ofSlots_append_by_parts _ _).2.2 _ hStarts hBalanced).2⟩

end Section

end Stencil
