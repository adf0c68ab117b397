import Mathlib.Order.Bounds.Basic
import Stencil.Proofs.Section.Pairing

/-!
# Markers that do not pair up

A list of slots whose markers are not balanced is refused because of one of its markers. If some
beginning of the list has more ends than starts, it is the end at which the first such beginning
stops, whatever starts are still open elsewhere. Otherwise starts are left over, and it is the
last start that is never closed: from there on every stretch has more starts than ends.

Both are statements about counts, and so about heights: the first place where the height falls
below zero, and the last start that the height never comes back to.

## Main results

* `Unmatched.unique` — at most one marker is to blame.
* `ofSlots_eq_error_iff` — pairing up fails at the marker that is to blame, and at no other.
-/

namespace Stencil.Section

/-- The slots up to slot `i`, that one included, hold more ends than starts. -/
def Overclosed (kinds : List SlotKind) (i : Nat) : Prop :=
  i < kinds.length ∧
    (kinds.take (i + 1)).count .sectionStart < (kinds.take (i + 1)).count .sectionEnd

/-- Every stretch that begins with the start at `s` holds more starts than ends. -/
structure NeverClosed (kinds : List SlotKind) (s : Nat) : Prop where
  start_at : kinds[s]? = some .sectionStart
  more_starts : ∀ n, s < n → n ≤ kinds.length →
    (slice kinds s n).count .sectionEnd < (slice kinds s n).count .sectionStart

/-- The marker that is to blame when the markers of a list do not pair up. -/
inductive Unmatched (kinds : List SlotKind) : TemplateError → Prop
  /-- The first end that leaves more ends than starts. -/
  | ending {i : Nat} (first : IsLeast {n | Overclosed kinds n} i) :
      Unmatched kinds (.unmatchedEnd i)
  /-- The last start that is never closed, where no end is to blame. -/
  | starting {s : Nat} (no_end : ∀ n, ¬ Overclosed kinds n)
      (more_starts : kinds.count .sectionEnd < kinds.count .sectionStart)
      (last : IsGreatest {n | NeverClosed kinds n} s) : Unmatched kinds (.unmatchedStart s)

variable {kinds : List SlotKind}

/-! ## In terms of heights -/

theorem overclosed_iff_height {i : Nat} :
    Overclosed kinds i ↔ i < kinds.length ∧ height kinds (i + 1) < 0 := by
  unfold Overclosed height
  apply and_congr_right
  intro _
  omega

theorem neverClosed_iff_height {s : Nat} :
    NeverClosed kinds s ↔ kinds[s]? = some .sectionStart ∧
      ∀ n, s < n → n ≤ kinds.length → height kinds s < height kinds n := by
  have hCounts : ∀ n, s < n → n ≤ kinds.length →
      ((slice kinds s n).count .sectionStart : Int) - (slice kinds s n).count .sectionEnd =
        height kinds n - height kinds s := by
    intro n hs hn
    have hSlice := height_slice kinds (show s + (n - s) ≤ n by omega)
    rw [Nat.add_sub_cancel' (Nat.le_of_lt hs), height,
      List.take_of_length_le (Nat.le_of_eq (length_slice hn))] at hSlice
    exact hSlice
  constructor
  · intro h
    refine ⟨h.start_at, fun n hs hn => ?_⟩
    have hMore := h.more_starts n hs hn
    have hEq := hCounts n hs hn
    omega
  · intro h
    refine ⟨h.1, fun n hs hn => ?_⟩
    have hHigher := h.2 n hs hn
    have hEq := hCounts n hs hn
    omega

theorem count_lt_count_iff_height :
    kinds.count .sectionEnd < kinds.count .sectionStart ↔ 0 < height kinds kinds.length := by
  unfold height
  rw [List.take_length]
  omega

/-! ## At most one marker is to blame -/

theorem Unmatched.unique {e e' : TemplateError} (h : Unmatched kinds e)
    (h' : Unmatched kinds e') : e = e' := by
  cases h with
  | ending first =>
      cases h' with
      | ending first' => rw [first.unique first']
      | starting no_end' => exact absurd first.1 (no_end' _)
  | starting no_end more_starts last =>
      cases h' with
      | ending first' => exact absurd first'.1 (no_end _)
      | starting no_end' more_starts' last' => rw [last.unique last']

theorem Unmatched.not_balanced {e : TemplateError} (h : Unmatched kinds e) :
    ¬ Balanced kinds := by
  intro hBalanced
  obtain ⟨hNonneg, hZero⟩ := balanced_iff_height.mp hBalanced
  cases h with
  | @ending i first =>
      obtain ⟨hLt, hBelow⟩ := overclosed_iff_height.mp first.1
      have hAbove := hNonneg (i + 1) hLt
      omega
  | starting no_end more_starts last =>
      have hPos := count_lt_count_iff_height.mp more_starts
      omega

/-! ## What the walk reports -/

/-- An end that nothing is open for is the first to be to blame. -/
theorem Opened.unmatched_end {i : Nat} (h : Opened kinds i [])
    (hEnd : kinds[i]? = some .sectionEnd) : Unmatched kinds (.unmatchedEnd i) := by
  apply Unmatched.ending
  constructor
  · have hZero := h.height_eq
    have hBelow := height_succ hEnd
    show Overclosed kinds i
    apply overclosed_iff_height.mpr
    constructor
    · exact (List.getElem?_eq_some_iff.mp hEnd).1
    · rw [hBelow, hZero]
      decide
  · intro n hn
    obtain ⟨-, hBelow⟩ := overclosed_iff_height.mp hn
    -- up to slot `i` the height is not below zero
    by_cases hLe : n + 1 ≤ i
    · have hAbove := h.nonneg (n + 1) hLe
      omega
    · show i ≤ n
      omega

/-- The innermost start that is still open behind the last slot is the last that is never
closed. -/
theorem Opened.unmatched_start {s : Nat} {outer : List Nat}
    (h : Opened kinds kinds.length (s :: outer)) : Unmatched kinds (.unmatchedStart s) := by
  have hNonneg := h.nonneg
  have hHeight := h.height_eq
  cases h with
  | cons lt start_at before behind back =>
      have hStart := height_succ start_at
      simp only [rise] at hStart
      apply Unmatched.starting
      · intro n hn
        obtain ⟨hLt, hBelow⟩ := overclosed_iff_height.mp hn
        have hAbove := hNonneg (n + 1) hLt
        omega
      · apply count_lt_count_iff_height.mpr
        rw [hHeight, List.length_cons]
        omega
      · constructor
        · show NeverClosed kinds s
          apply neverClosed_iff_height.mpr
          refine ⟨start_at, fun n hs hn => ?_⟩
          have hBehind := behind n hs hn
          omega
        · intro n hn
          obtain ⟨hStart', hHigher⟩ := neverClosed_iff_height.mp hn
          have hLt := (List.getElem?_eq_some_iff.mp hStart').1
          -- a later start is as high as the end of the list, so it does not stay below
          by_cases hLe : n ≤ s
          · exact hLe
          · have hBehind := behind n (by omega) (Nat.le_of_lt hLt)
            have hLast := hHigher kinds.length hLt (Nat.le_refl _)
            omega

theorem unmatched_of_ofSlots {slots : List Slot} {e : TemplateError}
    (h : ofSlots slots = .error e) : Unmatched (slots.map Slot.kind) e := by
  rcases ofSlots_cases slots with
    ⟨q, hOk, -⟩ | ⟨i, hError, hEnd, hOpened⟩ | ⟨s, outer, hError, hOpened⟩
  · rw [hOk] at h
    cases h
  · obtain rfl := Except.error.inj (hError.symm.trans h)
    exact hOpened.unmatched_end hEnd
  · obtain rfl := Except.error.inj (hError.symm.trans h)
    rw [← List.length_map (f := Slot.kind)] at hOpened
    exact hOpened.unmatched_start

/-- **Pairing up fails at the marker that is to blame.** -/
theorem ofSlots_eq_error_iff {slots : List Slot} {e : TemplateError} :
    ofSlots slots = .error e ↔ Unmatched (slots.map Slot.kind) e := by
  constructor
  · exact unmatched_of_ofSlots
  · intro h
    cases hFound : ofSlots slots with
    | ok sections => exact absurd (balanced_of_ofSlots hFound) h.not_balanced
    | error e' => rw [(unmatched_of_ofSlots hFound).unique h]

end Stencil.Section
