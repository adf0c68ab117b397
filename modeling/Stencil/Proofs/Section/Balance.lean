import Stencil.Section

/-!
# Balanced section markers

Section starts and ends pair up when no beginning of a list has more ends than starts and the
whole list has as many of one as of the other. That is a statement about the *height* of the
list, the number of starts less the number of ends in its first slots: the height never falls
below zero, and ends at zero.

Heights turn statements about stretches in the middle of a list into inequalities between
numbers: a stretch is balanced when the height never falls below its height at the start, and
comes back to it at the end.

## Main results

* `exists_start_of_height_lt` — what leads up to a place in a list.
* `balanced_iff_height`, `balanced_slice_iff` — being balanced in terms of heights, for a
  whole list and for a stretch of it.
* `Balanced.cons`, `Balanced.wrap` — how balanced lists are built.
* `Balanced.length_eq_of_append` — a balanced list followed by an end can be told from what
  comes after it.
-/

namespace Stencil.Section

/-! ## Heights -/

/-- The number of starts less the number of ends among the first `n` slots. -/
def height (kinds : List SlotKind) (n : Nat) : Int :=
  (kinds.take n).count .sectionStart - (kinds.take n).count .sectionEnd

/-- What one slot adds to the height. -/
def rise : SlotKind → Int
  | .sectionStart => 1
  | .sectionEnd => -1
  | .direct => 0
  | .accessor => 0

@[simp] theorem height_zero (kinds : List SlotKind) : height kinds 0 = 0 := by
  simp [height]

theorem rise_eq_zero {kind : SlotKind} (h : kind.isMarker = false) : rise kind = 0 := by
  cases kind <;> simp_all [rise, SlotKind.isMarker]

theorem height_cons (kind : SlotKind) (kinds : List SlotKind) (n : Nat) :
    height (kind :: kinds) (n + 1) = rise kind + height kinds n := by
  unfold height
  rw [List.take_succ_cons]
  cases kind <;> simp [rise] <;> omega

theorem height_succ {kinds : List SlotKind} {n : Nat} {kind : SlotKind}
    (h : kinds[n]? = some kind) : height kinds (n + 1) = height kinds n + rise kind := by
  induction kinds generalizing n with
  | nil => simp at h
  | cons first rest ih =>
      cases n with
      | zero =>
          obtain rfl : first = kind := by simpa using h
          simp [height_cons]
      | succ n =>
          rw [height_cons, height_cons, ih (by simpa using h)]
          omega

/-- A slot that is no marker leaves the height as it is. -/
theorem height_skip {kinds : List SlotKind} {n : Nat} {kind : SlotKind}
    (h : kinds[n]? = some kind) (hKind : kind.isMarker = false) :
    height kinds (n + 1) = height kinds n := by
  rw [height_succ h, rise_eq_zero hKind, Int.add_zero]

theorem height_append_of_le {kinds more : List SlotKind} {n : Nat} (h : n ≤ kinds.length) :
    height (kinds ++ more) n = height kinds n := by
  simp [height, List.take_append_of_le_length h]

/-- An entry of the second list, counted from the start of the first. -/
theorem getElem?_append_add {α : Type} (front back : List α) (n : Nat) :
    (front ++ back)[front.length + n]? = back[n]? := by
  rw [List.getElem?_append_right (Nat.le_add_right _ _), Nat.add_sub_cancel_left]

theorem height_append_add (kinds more : List SlotKind) (n : Nat) :
    height (kinds ++ more) (kinds.length + n) =
      height kinds kinds.length + height more n := by
  induction kinds with
  | nil => simp
  | cons first rest ih =>
      rw [List.cons_append, List.length_cons, Nat.add_right_comm, height_cons, height_cons, ih]
      omega

theorem height_take {kinds : List SlotKind} {n stop : Nat} (h : n ≤ stop) :
    height (kinds.take stop) n = height kinds n := by
  simp [height, List.take_take, Nat.min_eq_left h]

/-- The height inside the rest of a list, measured from where the rest starts. -/
theorem height_drop (kinds : List SlotKind) (start n : Nat) :
    height (kinds.drop start) n = height kinds (start + n) - height kinds start := by
  induction kinds generalizing start with
  | nil => simp [height]
  | cons first rest ih =>
      cases start with
      | zero => simp
      | succ start =>
          rw [List.drop_succ_cons, ih, Nat.add_right_comm, height_cons, height_cons]
          omega

/-- Where the list is higher than `level`, some start in front has lifted it above `level`, and
it has stayed there since. -/
theorem exists_start_of_height_lt {kinds : List SlotKind} {level : Int} (hLevel : 0 ≤ level)
    {j : Nat} (hj : j ≤ kinds.length) (h : level < height kinds j) :
    ∃ s < j, kinds[s]? = some .sectionStart ∧ height kinds s = level ∧
      ∀ n, s < n → n ≤ j → level < height kinds n := by
  induction j with
  | zero =>
      rw [height_zero] at h
      omega
  | succ j ih =>
      by_cases hBefore : level < height kinds j
      · obtain ⟨s, hs, hStart, hHeight, hAbove⟩ := ih (by omega) hBefore
        refine ⟨s, by omega, hStart, hHeight, fun n hn hn' => ?_⟩
        by_cases hLast : n = j + 1
        · exact hLast ▸ h
        · exact hAbove n hn (by omega)
      · obtain ⟨kind, hKind⟩ : ∃ kind, kinds[j]? = some kind :=
          ⟨_, List.getElem?_eq_getElem (show j < kinds.length by omega)⟩
        have hHeight := height_succ hKind
        -- nothing but a start leads from `level` to a place above it
        cases kind with
        | sectionStart =>
            simp only [rise] at hHeight
            refine ⟨j, Nat.lt_succ_self j, hKind, by omega, fun n hn hn' => ?_⟩
            have hLast : n = j + 1 := by omega
            exact hLast ▸ h
        | _ =>
            simp only [rise] at hHeight
            omega

/-! ## Balanced lists -/

/-- Starts and ends pair up. -/
structure Balanced (kinds : List SlotKind) : Prop where
  /-- No beginning of the list has more ends than starts. -/
  take_le : ∀ n, (kinds.take n).count .sectionEnd ≤ (kinds.take n).count .sectionStart
  /-- There are as many ends as starts. -/
  count_eq : kinds.count .sectionEnd = kinds.count .sectionStart

/-- Being balanced in terms of heights. -/
theorem balanced_iff_height {kinds : List SlotKind} :
    Balanced kinds ↔
      (∀ n ≤ kinds.length, 0 ≤ height kinds n) ∧ height kinds kinds.length = 0 := by
  constructor
  · rintro ⟨hTake, hCount⟩
    constructor
    · intro n _
      have hLe := hTake n
      unfold height
      omega
    · unfold height
      rw [List.take_length]
      omega
  · rintro ⟨hNonneg, hZero⟩
    unfold height at hNonneg hZero
    rw [List.take_length] at hZero
    constructor
    · intro n
      by_cases hn : n ≤ kinds.length
      · have hLe := hNonneg n hn
        omega
      · rw [List.take_of_length_le (Nat.le_of_not_le hn)]
        omega
    · omega

theorem balanced_nil : Balanced [] := by
  simp [balanced_iff_height]

/-- A slot that is no marker may stand in front of a balanced list. -/
theorem Balanced.cons {kind : SlotKind} {kinds : List SlotKind} (hKind : kind.isMarker = false)
    (h : Balanced kinds) : Balanced (kind :: kinds) := by
  obtain ⟨hNonneg, hZero⟩ := balanced_iff_height.mp h
  rw [balanced_iff_height]
  constructor
  · intro n hn
    cases n with
    | zero => simp
    | succ n =>
        have hAt := hNonneg n (by simpa using hn)
        rw [height_cons, rise_eq_zero hKind]
        omega
  · rw [List.length_cons, height_cons, rise_eq_zero hKind, hZero]
    rfl

/-- A balanced list between a start and an end may stand in front of a balanced list. -/
theorem Balanced.wrap {body rest : List SlotKind} (hBody : Balanced body)
    (hRest : Balanced rest) : Balanced (.sectionStart :: (body ++ .sectionEnd :: rest)) := by
  obtain ⟨hBodyNonneg, hBodyZero⟩ := balanced_iff_height.mp hBody
  obtain ⟨hRestNonneg, hRestZero⟩ := balanced_iff_height.mp hRest
  have hAfter : ∀ n, height (.sectionStart :: (body ++ .sectionEnd :: rest))
      (body.length + (n + 1) + 1) = height rest n := by
    intro n
    rw [height_cons, height_append_add, height_cons, hBodyZero]
    simp only [rise]
    omega
  rw [balanced_iff_height]
  constructor
  · intro n hn
    by_cases hIn : n < body.length + 2
    · cases n with
      | zero => simp
      | succ n =>
          have hAt := hBodyNonneg n (by omega)
          rw [height_cons, height_append_of_le (by omega)]
          simp only [rise]
          omega
    · have hn' : n = body.length + (n - body.length - 2 + 1) + 1 := by omega
      rw [hn', hAfter]
      apply hRestNonneg
      simp only [List.length_cons, List.length_append] at hn
      omega
  · have hLength : (SlotKind.sectionStart :: (body ++ .sectionEnd :: rest)).length =
        body.length + (rest.length + 1) + 1 := by simp
    rw [hLength, hAfter, hRestZero]

/-- What comes after a balanced list at the front of a balanced list is balanced. -/
theorem Balanced.of_append {kinds more : List SlotKind} (hKinds : Balanced kinds)
    (h : Balanced (kinds ++ more)) : Balanced more := by
  obtain ⟨-, hKindsZero⟩ := balanced_iff_height.mp hKinds
  obtain ⟨hNonneg, hZero⟩ := balanced_iff_height.mp h
  have hAfter : ∀ n, height (kinds ++ more) (kinds.length + n) = height more n := by
    intro n
    rw [height_append_add, hKindsZero, Int.zero_add]
  rw [balanced_iff_height]
  constructor
  · intro n hn
    rw [← hAfter]
    apply hNonneg
    rw [List.length_append]
    omega
  · rw [← hAfter, ← List.length_append, hZero]

/-- An end behind a balanced list is behind no shorter balanced list. -/
theorem Balanced.length_le_of_append {kinds other more rest : List SlotKind}
    (h : Balanced kinds) (hOther : Balanced other)
    (hEq : kinds ++ .sectionEnd :: more = other ++ .sectionEnd :: rest) :
    other.length ≤ kinds.length := by
  have hZero := (balanced_iff_height.mp h).2
  have hNonneg := (balanced_iff_height.mp hOther).1
  by_cases hLt : kinds.length < other.length
  · -- the end behind `kinds` would stand inside `other` and lead below zero
    have hBelow : height (kinds ++ .sectionEnd :: more) (kinds.length + 1) = -1 := by
      rw [height_append_add, hZero, height_cons]
      simp [rise]
    rw [hEq, height_append_of_le hLt] at hBelow
    have hAt := hNonneg _ hLt
    omega
  · exact Nat.le_of_not_lt hLt

/-- Where a balanced list stands before an end, its length is determined. -/
theorem Balanced.length_eq_of_append {kinds other more rest : List SlotKind}
    (h : Balanced kinds) (hOther : Balanced other)
    (hEq : kinds ++ .sectionEnd :: more = other ++ .sectionEnd :: rest) :
    kinds.length = other.length :=
  Nat.le_antisymm (hOther.length_le_of_append h hEq.symm) (h.length_le_of_append hOther hEq)

/-! ## Stretches of a list -/

/-- The slots from `start` up to `stop`, the latter excluded. -/
def slice {α : Type} (slots : List α) (start stop : Nat) : List α :=
  (slots.take stop).drop start

theorem length_slice {α : Type} {slots : List α} {start stop : Nat}
    (h : stop ≤ slots.length) : (slice slots start stop).length = stop - start := by
  simp [slice]
  omega

/-- The height inside a stretch, measured from its start. -/
theorem height_slice (kinds : List SlotKind) {start stop n : Nat} (h : start + n ≤ stop) :
    height (slice kinds start stop) n = height kinds (start + n) - height kinds start := by
  rw [slice, height_drop, height_take h, height_take (by omega)]

/-- A stretch is balanced when the height does not fall below where it starts, and comes back
to it. -/
theorem balanced_slice_iff {kinds : List SlotKind} {start stop : Nat} (hStart : start ≤ stop)
    (hStop : stop ≤ kinds.length) :
    Balanced (slice kinds start stop) ↔
      (∀ n, start ≤ n → n ≤ stop → height kinds start ≤ height kinds n) ∧
        height kinds stop = height kinds start := by
  rw [balanced_iff_height, length_slice hStop]
  have hAt : ∀ n, start ≤ n → n ≤ stop →
      height (slice kinds start stop) (n - start) = height kinds n - height kinds start := by
    intro n hn hn'
    rw [height_slice kinds (show start + (n - start) ≤ stop by omega), Nat.add_sub_cancel' hn]
  rw [hAt stop hStart (Nat.le_refl stop)]
  constructor
  · rintro ⟨hNonneg, hBack⟩
    constructor
    · intro n hn hn'
      have hLe := hNonneg (n - start) (by omega)
      rw [hAt n hn hn'] at hLe
      omega
    · omega
  · rintro ⟨hAbove, hBack⟩
    constructor
    · intro n hn
      have hLe := hAbove (start + n) (by omega) (by omega)
      rw [height_slice kinds (show start + n ≤ stop by omega)]
      omega
    · omega

end Stencil.Section
