import Stencil.Proofs.Section.Pairing
import Stencil.Tree

/-!
# The parts of a tree

Writing a tree out loses nothing, and every template whose sections pair up is a tree written
out. So templates with matching sections and trees are the same thing.

## Main results

* `balanced_slots` — the sections of a tree pair up once it is written out.
* `eq_of_parts` — a tree is determined by its fragments and slots.
* `exists_of_balanced` — fragments and balanced slots are those of a tree.
-/

namespace Stencil.Tree

open Section

theorem balanced_slots (tree : Tree) : Balanced (tree.slots.map Slot.kind) := by
  induction tree with
  | text before => exact balanced_nil
  | direct before value rest ih => exact ih.cons rfl
  | accessor before a rest ih => exact ih.cons rfl
  | block before driver body rest ihBody ihRest =>
      simpa [slots, Slot.kind] using ihBody.wrap ihRest

/-- A tree is determined by its fragments and slots. -/
theorem eq_of_parts {tree other : Tree} (hFragments : tree.fragments = other.fragments)
    (hSlots : tree.slots = other.slots) : tree = other := by
  induction tree generalizing other with
  | text before => cases other <;> simp_all [fragments, slots]
  | direct before value rest ih =>
      cases other with
      | direct before' value' rest' =>
          simp only [fragments, slots, List.cons.injEq, Slot.direct.injEq] at hFragments hSlots
          rw [hFragments.1, hSlots.1, ih hFragments.2 hSlots.2]
      | _ => simp [slots] at hSlots
  | accessor before a rest ih =>
      cases other with
      | accessor before' a' rest' =>
          simp only [fragments, slots, List.cons.injEq, Slot.accessor.injEq] at hFragments hSlots
          rw [hFragments.1, hSlots.1, ih hFragments.2 hSlots.2]
      | _ => simp [slots] at hSlots
  | block before driver body rest ihBody ihRest =>
      cases other with
      | block before' driver' body' rest' =>
          simp only [fragments, slots, List.cons.injEq, Slot.opening.injEq] at hFragments hSlots
          have hKinds := congrArg (List.map Slot.kind) hSlots.2
          simp only [List.map_append, List.map_cons, Slot.kind] at hKinds
          -- both bodies are balanced, so the first end behind the start is where both stop
          have hLength : body.slots.length = body'.slots.length := by
            simpa using (balanced_slots body).length_eq_of_append (balanced_slots body') hKinds
          obtain ⟨hBody, hRest⟩ := List.append_inj hSlots.2 hLength
          obtain ⟨hBodyText, hRestText⟩ := List.append_inj hFragments.2
            (by rw [length_fragments, length_fragments, hLength])
          rw [hFragments.1, hSlots.1, ihBody hBodyText hBody,
            ihRest hRestText (List.cons.inj hRest).2]
      | _ => simp [slots] at hSlots

/-- Balanced slots that start with a section: its body, its end, and the rest. -/
theorem exists_of_opening {driver : Driver} {after : List Slot}
    (h : Balanced ((Slot.opening driver :: after).map Slot.kind)) :
    ∃ body rest, after = body ++ .closing :: rest ∧ Balanced (body.map Slot.kind) ∧
      Balanced (rest.map Slot.kind) := by
  obtain ⟨sections, hSections⟩ := (exists_ofSlots_iff (.opening driver :: after)).mpr h
  obtain ⟨e, hMatches⟩ := exists_matches_of_start hSections (s := 0) rfl
  obtain ⟨bodyKinds, restKinds, hAfter, -, hBody⟩ := hMatches.of_cons
  obtain ⟨body, tail, rfl, rfl, hTail⟩ := List.map_eq_append_iff.mp hAfter
  obtain ⟨last, rest, rfl, hLast, rfl⟩ := List.map_eq_cons_iff.mp hTail
  obtain rfl := (Slot.kind_eq_sectionEnd_iff last).mp hLast
  refine ⟨body, rest, rfl, hBody, (hBody.wrap balanced_nil).of_append ?_⟩
  simpa [Slot.kind] using h

/-- Fragments and balanced slots are those of a tree. -/
theorem exists_of_balanced (fragments : List String) (slots : List Slot)
    (hLength : fragments.length = slots.length + 1) (h : Balanced (slots.map Slot.kind)) :
    ∃ tree : Tree, tree.fragments = fragments ∧ tree.slots = slots := by
  match fragments, slots with
  | [], _ => simp at hLength
  | before :: more, [] =>
      obtain rfl : more = [] := by simpa using hLength
      exact ⟨.text before, rfl, rfl⟩
  | before :: more, .direct value :: after =>
      have hAfter : Balanced (after.map Slot.kind) := (balanced_nil.cons rfl).of_append h
      obtain ⟨rest, rfl, rfl⟩ := exists_of_balanced more after (by simpa using hLength) hAfter
      exact ⟨.direct before value rest, rfl, rfl⟩
  | before :: more, .accessor a :: after =>
      have hAfter : Balanced (after.map Slot.kind) := (balanced_nil.cons rfl).of_append h
      obtain ⟨rest, rfl, rfl⟩ := exists_of_balanced more after (by simpa using hLength) hAfter
      exact ⟨.accessor before a rest, rfl, rfl⟩
  | before :: more, .opening driver :: after =>
      obtain ⟨bodySlots, restSlots, hAfter, hBody, hRest⟩ := exists_of_opening h
      have hCount : more.length = bodySlots.length + 1 + (restSlots.length + 1) := by
        simp [hAfter] at hLength
        omega
      obtain ⟨body, hBodyText, rfl⟩ := exists_of_balanced (more.take (bodySlots.length + 1))
        bodySlots (by rw [List.length_take]; omega) hBody
      obtain ⟨rest, hRestText, rfl⟩ := exists_of_balanced (more.drop (body.slots.length + 1))
        restSlots (by rw [List.length_drop]; omega) hRest
      refine ⟨.block before driver body rest, ?_, ?_⟩
      · rw [Tree.fragments, hBodyText, hRestText, List.take_append_drop]
      · rw [Tree.slots, hAfter]
  | before :: more, .closing :: after =>
      have := h.take_le 1
      simp [Slot.kind] at this
termination_by slots.length
decreasing_by all_goals simp_all <;> omega

end Stencil.Tree
