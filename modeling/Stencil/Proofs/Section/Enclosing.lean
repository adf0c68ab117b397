import Stencil.Proofs.Section.Pairing

/-!
# Enclosing sections

The sections around a slot are the pairs of the section map whose start is in front of the slot
and whose end is behind it. Outside every section there are none; inside a section, where the
list is as high as behind its start, they are the sections around its start and the section
itself.

## Main results

* `mem_enclosing` — the sections around a slot.
* `enclosing_eq_nil` — a slot at height zero stands outside every section.
* `enclosing_eq_append` — the sections around a slot of a body.
* `length_enclosing` — around a slot there are as many sections as the list is high there.
-/

namespace Stencil

/-- The sections around slot `j`, the outermost one first. -/
def SectionMap.enclosing (sections : SectionMap) (j : Nat) : List (Nat × Nat) :=
  sections.pairs.filter fun p => p.1 < j ∧ j < p.2

namespace Section

/-- A list of pairs in the order of their first components is determined by its members. -/
theorem eq_of_sorted {ps qs : List (Nat × Nat)} (hps : ps.Pairwise fun p q => p.1 < q.1)
    (hqs : qs.Pairwise fun p q => p.1 < q.1) (hMem : ∀ p, p ∈ ps ↔ p ∈ qs) : ps = qs := by
  have hNodup : ∀ {l : List (Nat × Nat)}, (l.Pairwise fun p q => p.1 < q.1) → l.Nodup :=
    fun h => h.imp fun hLt hEq => Nat.ne_of_lt hLt (congrArg Prod.fst hEq)
  have hPerm : ps.Perm qs := (List.perm_ext_iff_of_nodup (hNodup hps) (hNodup hqs)).mpr hMem
  apply List.Perm.eq_of_pairwise _ hps hqs hPerm
  intro p q _ _ hpq hqp
  exact absurd (Nat.lt_trans hpq hqp) (Nat.lt_irrefl _)

variable {slots : List Slot} {sections : SectionMap} (h : ofSlots slots = .ok sections)

include h

/-- The sections around a slot start in front of it and end behind it. -/
theorem mem_enclosing {j s e : Nat} :
    (s, e) ∈ sections.enclosing j ↔ Matches (slots.map Slot.kind) s e ∧ s < j ∧ j < e := by
  rw [SectionMap.enclosing, List.mem_filter, SectionMap.mem_pairs, endOf_iff_matches h]
  simp

omit h in
theorem enclosing_sorted (sections : SectionMap) (j : Nat) :
    (sections.enclosing j).Pairwise fun p q => p.1 < q.1 :=
  sections.pairs_sorted.filter _

/-- A slot at height zero stands outside every section. -/
theorem enclosing_eq_nil {j : Nat} (hHeight : height (slots.map Slot.kind) j = 0) :
    sections.enclosing j = [] := by
  apply List.eq_nil_iff_forall_not_mem.mpr
  rintro ⟨s, e⟩ hMem
  obtain ⟨hMatches, hs, he⟩ := (mem_enclosing h).mp hMem
  have hHigher := hMatches.height_lt hs (Nat.le_of_lt he)
  have hEnd := hMatches.end_lt_length
  have hNonneg := (balanced_iff_height.mp (balanced_of_ofSlots h)).1 s (by omega)
  omega

/-- Around a slot of a body are the sections around the start of the body's section and that
section itself. -/
theorem enclosing_eq_append {j s e : Nat} (hMatches : Matches (slots.map Slot.kind) s e)
    (hs : s < j) (he : j < e)
    (hHeight : height (slots.map Slot.kind) j = height (slots.map Slot.kind) (s + 1)) :
    sections.enclosing j = sections.enclosing s ++ [(s, e)] := by
  have hSorted : (sections.enclosing s ++ [(s, e)]).Pairwise fun p q => p.1 < q.1 := by
    rw [List.pairwise_append]
    refine ⟨enclosing_sorted sections s, List.pairwise_singleton _ _, ?_⟩
    intro p hp q hq
    rw [List.mem_singleton.mp hq]
    exact ((mem_enclosing h).mp hp).2.1
  apply eq_of_sorted (enclosing_sorted sections j) hSorted
  rintro ⟨s', e'⟩
  rw [List.mem_append, List.mem_singleton, mem_enclosing h, mem_enclosing h, Prod.mk.injEq]
  constructor
  · rintro ⟨hFound, hs', he'⟩
    rcases Nat.lt_trichotomy s' s with hBefore | rfl | hAfter
    · exact .inl ⟨hFound, hBefore, by omega⟩
    · exact .inr ⟨rfl, hFound.end_unique hMatches⟩
    · -- a section that starts behind `s` and is still open at `j` would lift `j` above `s + 1`
      have hHigher := hFound.height_lt hs' (Nat.le_of_lt he')
      have hInside := hMatches.height_inside.1 s' hAfter (by omega)
      omega
  · rintro (⟨hFound, hs', he'⟩ | ⟨rfl, rfl⟩)
    · rcases hFound.disjoint_or_nested hMatches hs' with hDisjoint | hNested
      · omega
      · exact ⟨hFound, by omega, by omega⟩
    · exact ⟨hMatches, hs, he⟩

/-- Around a slot that is no end there are as many sections as the list is high in front of
it. -/
theorem length_enclosing {j : Nat} {kind : SlotKind}
    (hKind : (slots.map Slot.kind)[j]? = some kind) (hNe : kind ≠ .sectionEnd) :
    ((sections.enclosing j).length : Int) = height (slots.map Slot.kind) j := by
  have hLt := (List.getElem?_eq_some_iff.mp hKind).1
  induction j using Nat.strongRecOn generalizing kind with
  | ind j ih =>
      have hNonneg := (balanced_iff_height.mp (balanced_of_ofSlots h)).1 j (Nat.le_of_lt hLt)
      by_cases hZero : height (slots.map Slot.kind) j = 0
      · rw [enclosing_eq_nil h hZero, hZero]
        rfl
      · obtain ⟨s, hs, hStart, hHeight, hAbove⟩ := exists_start_of_height_lt
          (show 0 ≤ height (slots.map Slot.kind) j - 1 by omega) (Nat.le_of_lt hLt) (by omega)
        obtain ⟨e, hMatches⟩ := exists_matches_of_start h hStart
        have hInside : j < e := by
          apply Nat.lt_of_not_le
          intro hLe
          -- behind its end the section is as low as at its start
          by_cases hEq : e = j
          · exact hNe (Option.some.inj (hKind.symm.trans (hEq ▸ hMatches.end_at)))
          · have hBehind := hMatches.height_behind
            have hStays := hAbove (e + 1) (by have := hMatches.lt; omega) (by omega)
            omega
        have hRise := height_succ hStart
        simp only [rise] at hRise
        have hOuter := ih s hs hStart (by decide) (by omega)
        rw [enclosing_eq_append h hMatches hs hInside (by omega), List.length_append,
          List.length_singleton]
        omega

end Section

end Stencil
