import Stencil.Proofs.Section.Balance

/-!
# Matching markers

A section start and a section end belong together when the stretch between them is balanced.
Whatever the list looks like, balanced or not, a start then has at most one end and an end at
most one start, and two sections are either disjoint or one inside the other.

## Main results

* `Matches.end_unique`, `Matches.start_unique` — a marker has at most one partner.
* `Matches.disjoint_or_nested` — sections do not cross.
* `Matches.of_cons` — the list before and behind the end of a section that starts a list.
-/

namespace Stencil.Section

/-- The start at `s` and the end at `e` belong together. -/
structure Matches (kinds : List SlotKind) (s e : Nat) : Prop where
  start_at : kinds[s]? = some .sectionStart
  end_at : kinds[e]? = some .sectionEnd
  lt : s < e
  inside : Balanced (slice kinds (s + 1) e)

namespace Matches

variable {kinds : List SlotKind} {s e : Nat}

theorem end_lt_length (h : Matches kinds s e) : e < kinds.length :=
  (List.getElem?_eq_some_iff.mp h.end_at).1

theorem height_inside (h : Matches kinds s e) :
    (∀ n, s + 1 ≤ n → n ≤ e → height kinds (s + 1) ≤ height kinds n) ∧
      height kinds e = height kinds (s + 1) :=
  (balanced_slice_iff h.lt (Nat.le_of_lt h.end_lt_length)).mp h.inside

/-- Inside a section the list is higher than at its start. -/
theorem height_lt (h : Matches kinds s e) {n : Nat} (hs : s < n) (he : n ≤ e) :
    height kinds s < height kinds n := by
  have hStart := height_succ h.start_at
  have hInside := h.height_inside.1 n hs he
  simp only [rise] at hStart
  omega

/-- Before its end the list is one higher than at its start. -/
theorem height_end (h : Matches kinds s e) : height kinds e = height kinds s + 1 := by
  rw [h.height_inside.2, height_succ h.start_at, rise]

/-- Behind a section the list is as high as before it. -/
theorem height_behind (h : Matches kinds s e) : height kinds (e + 1) = height kinds s := by
  have hEnd := height_succ h.end_at
  have hBefore := h.height_end
  simp only [rise] at hEnd
  omega

/-- Markers between which the height is never as low as at the start belong together. -/
theorem of_height (hStart : kinds[s]? = some .sectionStart) (hEnd : kinds[e]? = some .sectionEnd)
    (hLt : s < e) (hInside : ∀ n, s < n → n ≤ e → height kinds (s + 1) ≤ height kinds n)
    (hBack : height kinds e = height kinds (s + 1)) : Matches kinds s e where
  start_at := hStart
  end_at := hEnd
  lt := hLt
  inside :=
    (balanced_slice_iff hLt (Nat.le_of_lt (List.getElem?_eq_some_iff.mp hEnd).1)).mpr
      ⟨hInside, hBack⟩

theorem end_le {e' : Nat} (h : Matches kinds s e) (h' : Matches kinds s e') : e' ≤ e := by
  apply Nat.le_of_not_lt
  intro hLt
  have hStart := h.lt
  have hBehind := h.height_behind
  have hInside := h'.height_lt (show s < e + 1 by omega) hLt
  omega

theorem end_unique {e' : Nat} (h : Matches kinds s e) (h' : Matches kinds s e') : e = e' :=
  Nat.le_antisymm (h'.end_le h) (h.end_le h')

theorem start_le {s' : Nat} (h : Matches kinds s e) (h' : Matches kinds s' e) : s' ≤ s := by
  apply Nat.le_of_not_lt
  intro hLt
  have hIn := h.height_lt hLt (Nat.le_of_lt h'.lt)
  have hEnd := h.height_end
  have hEnd' := h'.height_end
  omega

theorem start_unique {s' : Nat} (h : Matches kinds s e) (h' : Matches kinds s' e) : s = s' :=
  Nat.le_antisymm (h'.start_le h) (h.start_le h')

/-- Two sections are disjoint, or the one that starts later lies inside the other. -/
theorem disjoint_or_nested {s' e' : Nat} (h : Matches kinds s e) (h' : Matches kinds s' e')
    (hLt : s < s') : e < s' ∨ e' < e := by
  have hNe : e ≠ s' := by
    rintro rfl
    have hKind := h.end_at.symm.trans h'.start_at
    cases hKind
  have hNe' : e ≠ e' := by
    rintro rfl
    have hStart := h.start_unique h'
    omega
  by_cases hBefore : s' < e
  · right
    apply Nat.lt_of_not_le
    intro hLe
    -- the end of the first section would lead below the start of the second, from inside it
    have hIn := h.height_lt hLt (Nat.le_of_lt hBefore)
    have hIn' := h'.height_lt (show s' < e + 1 by omega) (by omega)
    have hBehind := h.height_behind
    omega
  · left
    omega

/-- A section at the front of a list: its body is balanced, and behind its end stands the
rest. -/
theorem of_cons {rest : List SlotKind} (h : Matches (.sectionStart :: rest) 0 e) :
    ∃ body more, rest = body ++ .sectionEnd :: more ∧ body.length + 1 = e ∧ Balanced body := by
  have hPos := h.lt
  obtain ⟨e, rfl⟩ : ∃ n, e = n + 1 := ⟨e - 1, by omega⟩
  have hEnd : rest[e]? = some .sectionEnd := by simpa using h.end_at
  obtain ⟨hLt, hGet⟩ := List.getElem?_eq_some_iff.mp hEnd
  refine ⟨rest.take e, rest.drop (e + 1), ?_, ?_, ?_⟩
  · rw [← hGet, List.getElem_cons_drop, List.take_append_drop]
  · rw [List.length_take_of_le (Nat.le_of_lt hLt)]
  · simpa [slice] using h.inside

end Matches

end Stencil.Section
