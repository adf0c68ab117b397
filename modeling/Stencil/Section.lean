import Stencil.Error
import Stencil.Slot

/-!
# Sections

Section starts and section ends pair up like brackets. The section map of a list of slots
says for each start where its end is. It is made in one walk over the slots that keeps the
starts which are still open, the innermost one first: an end closes the innermost open start,
and what is still open after the last slot has no end.

## Main results

* `SectionMap.mem_pairs`, `SectionMap.pairs_sorted` — the pairs of a map are its starts and
  their ends, in the order of the starts.
* `SectionMap.endOf_add`, `SectionMap.length_pairs_add` — what one more section changes.
-/

namespace Stencil

/-- Where the sections of a list of slots end. -/
structure SectionMap where
  /-- For each slot, the position of the end of the section that it starts. -/
  ends : List (Option Nat)
  count : Nat
  deriving DecidableEq

namespace SectionMap

/-- The map of `slots` slots without a section. -/
def empty (slots : Nat) : SectionMap := ⟨List.replicate slots none, 0⟩

/-- The map with one more section. -/
def add (sections : SectionMap) (start stop : Nat) : SectionMap :=
  ⟨sections.ends.set start (some stop), sections.count + 1⟩

/-- The end of the section that the slot at `start` opens. -/
def endOf (sections : SectionMap) (start : Nat) : Option Nat :=
  sections.ends[start]?.join

def length (sections : SectionMap) : Nat := sections.count

def isEmpty (sections : SectionMap) : Bool := sections.count == 0

/-- The starts and ends of all sections, in the order of the starts. -/
def pairs (sections : SectionMap) : List (Nat × Nat) :=
  sections.ends.zipIdx.filterMap fun (stop, start) => stop.map (start, ·)

@[simp] theorem endOf_empty (slots start : Nat) : (empty slots).endOf start = none := by
  simp only [endOf, empty, List.getElem?_replicate]
  split <;> rfl

/-- One more section changes what is known about its start. -/
theorem endOf_add {sections : SectionMap} {start : Nat} (h : start < sections.ends.length)
    (stop other : Nat) :
    (sections.add start stop).endOf other =
      if other = start then some stop else sections.endOf other := by
  simp only [endOf, add, List.getElem?_set]
  by_cases hOther : other = start
  · subst hOther
    simp [h]
  · simp [hOther, Ne.symm hOther]

/-- The pairs of a map are its starts and their ends. -/
theorem mem_pairs {sections : SectionMap} {start stop : Nat} :
    (start, stop) ∈ sections.pairs ↔ sections.endOf start = some stop := by
  simp only [pairs, endOf, List.mem_filterMap, List.mem_zipIdx_iff_getElem?,
    Option.map_eq_some_iff, Option.join_eq_some_iff, Prod.exists, Prod.mk.injEq]
  constructor
  · rintro ⟨_, _, hGet, _, rfl, rfl, rfl⟩
    exact hGet
  · intro hGet
    exact ⟨some stop, start, hGet, stop, rfl, rfl, rfl⟩

/-- The pairs of a map are in the order of the starts. -/
theorem pairs_sorted (sections : SectionMap) :
    sections.pairs.Pairwise fun p q => p.1 < q.1 := by
  have hIndices : (sections.ends.zipIdx.map Prod.snd).Pairwise (· < ·) := by
    rw [List.zipIdx_map_snd]
    exact List.pairwise_lt_range'
  unfold pairs
  rw [List.pairwise_filterMap]
  refine (List.pairwise_map.mp hIndices).imp fun {a b} hLt p hp q hq => ?_
  obtain ⟨_, _, rfl⟩ := Option.map_eq_some_iff.mp hp
  obtain ⟨_, _, rfl⟩ := Option.map_eq_some_iff.mp hq
  exact hLt

/-- There are as many pairs as starts with an end. -/
theorem length_pairs (sections : SectionMap) :
    sections.pairs.length = sections.ends.countP Option.isSome := by
  conv => rhs; rw [← List.zipIdx_map_fst 0 sections.ends]
  rw [pairs, List.length_filterMap_eq_countP, List.countP_map]
  refine List.countP_congr fun p _ => ?_
  simp

/-- One more section is one more pair, if its start had no end before. -/
theorem length_pairs_add {sections : SectionMap} {start : Nat}
    (h : start < sections.ends.length) (hNone : sections.endOf start = none) (stop : Nat) :
    (sections.add start stop).pairs.length = sections.pairs.length + 1 := by
  have hGet : sections.ends[start] = none := by
    simpa [endOf, List.getElem?_eq_getElem h] using hNone
  rw [length_pairs, length_pairs, add, List.countP_set h, hGet]
  simp

end SectionMap

namespace Section

/-- Where a walk over slots stands: the position of the next slot, the starts that are still
open, innermost first, and the sections found so far. -/
structure Progress where
  position : Nat
  opened : List Nat
  sections : SectionMap

/-- The start of a walk over `slots` slots. -/
def Progress.start (slots : Nat) : Progress := ⟨0, [], SectionMap.empty slots⟩

/-- Walks over one slot. -/
def step (p : Progress) (kind : SlotKind) : Except TemplateError Progress :=
  match kind with
  | .sectionStart => .ok ⟨p.position + 1, p.position :: p.opened, p.sections⟩
  | .sectionEnd =>
    match p.opened with
    | [] => .error (.unmatchedEnd p.position)
    | start :: outer => .ok ⟨p.position + 1, outer, p.sections.add start p.position⟩
  | .direct => .ok ⟨p.position + 1, p.opened, p.sections⟩
  | .accessor => .ok ⟨p.position + 1, p.opened, p.sections⟩

def scan (p : Progress) : List SlotKind → Except TemplateError Progress
  | [] => .ok p
  | kind :: rest =>
    match step p kind with
    | .error e => .error e
    | .ok q => scan q rest

/-- The sections found by a finished walk; the innermost start that is still open has no
end. -/
def Progress.finish (p : Progress) : Except TemplateError SectionMap :=
  match p.opened with
  | [] => .ok p.sections
  | start :: _ => .error (.unmatchedStart start)

/-- The section map of a list of slots, or the first end without a start, or else the
innermost start without an end. -/
def ofSlots (slots : List Slot) : Except TemplateError SectionMap :=
  match scan (Progress.start slots.length) (slots.map Slot.kind) with
  | .error e => .error e
  | .ok p => p.finish

end Section

end Stencil
