import Stencil.Tree

/-!
# Joining texts at their ends

Two lists of texts are joined at their ends when the last text of the first and the first text
of the second become one. That is what happens to the literal text when two templates are put
one behind the other: each keeps its fragments, but between them there is no slot, so the two
fragments that meet are one.

## Main results

* `joinEnds_concat` — joining two lists, written out.
* `intercalate_joinEnds` — what is written between the texts stays between them.
* `Tree.fragments_append`, `Tree.slots_append` — the parts of two trees, one behind the other.
-/

namespace Stencil

/-- Two lists of texts, the last of the first joined to the first of the second. -/
def joinEnds : List String → List String → List String
  | [], more => more
  | [last], [] => [last]
  | [last], first :: more => (last ++ first) :: more
  | text :: next :: rest, more => text :: joinEnds (next :: rest) more

variable {texts more : List String}

/-- Only the last text changes. -/
theorem joinEnds_cons (text : String) (h : texts ≠ []) (more : List String) :
    joinEnds (text :: texts) more = text :: joinEnds texts more := by
  cases texts with
  | nil => exact absurd rfl h
  | cons next rest => rfl

theorem joinEnds_append (front : List String) (h : texts ≠ []) (more : List String) :
    joinEnds (front ++ texts) more = front ++ joinEnds texts more := by
  induction front with
  | nil => rfl
  | cons text rest ih =>
      have hRest : rest ++ texts ≠ [] := by simp [h]
      rw [List.cons_append, joinEnds_cons text hRest, ih, List.cons_append]

/-- Joining two lists, written out. -/
theorem joinEnds_concat (front back : List String) (last first : String) :
    joinEnds (front ++ [last]) (first :: back) = front ++ (last ++ first) :: back :=
  joinEnds_append front (List.cons_ne_nil last []) (first :: back)

theorem joinEnds_nil (texts : List String) : joinEnds texts [] = texts := by
  induction texts with
  | nil => rfl
  | cons text rest ih =>
      cases rest with
      | nil => rfl
      | cons next rest => rw [joinEnds_cons text (List.cons_ne_nil next rest), ih]

theorem joinEnds_singleton_empty (h : texts ≠ []) : joinEnds [""] texts = texts := by
  cases texts with
  | nil => exact absurd rfl h
  | cons first more => rw [joinEnds, String.empty_append]

/-- An empty text in front of the second list keeps the two apart. -/
theorem joinEnds_empty_cons (h : texts ≠ []) (more : List String) :
    joinEnds texts ("" :: more) = texts ++ more := by
  induction texts with
  | nil => exact absurd rfl h
  | cons text rest ih =>
      cases rest with
      | nil => rw [joinEnds, String.append_empty, List.singleton_append]
      | cons next rest =>
          have hNext : next :: rest ≠ [] := List.cons_ne_nil next rest
          rw [joinEnds_cons text hNext, ih hNext]
          rfl

theorem joinEnds_ne_nil (h : texts ≠ []) (more : List String) : joinEnds texts more ≠ [] := by
  cases texts with
  | nil => exact absurd rfl h
  | cons text rest => cases rest <;> cases more <;> exact List.cons_ne_nil _ _

theorem joinEnds_assoc (texts more others : List String) :
    joinEnds (joinEnds texts more) others = joinEnds texts (joinEnds more others) := by
  induction texts with
  | nil => rfl
  | cons text rest ih =>
      cases rest with
      | nil =>
          match more, others with
          | [], others => cases others <;> rfl
          | [first], [] => rfl
          | [first], other :: others =>
              rw [joinEnds, joinEnds, joinEnds, joinEnds, String.append_assoc]
          | first :: second :: more, others => rfl
      | cons next rest =>
          have hNext : next :: rest ≠ [] := List.cons_ne_nil next rest
          rw [joinEnds_cons text hNext, joinEnds_cons text hNext,
            joinEnds_cons text (joinEnds_ne_nil hNext more), ih]

/-- Joining two lists leaves one text less than they have. -/
theorem length_joinEnds (h : texts ≠ []) (hMore : more ≠ []) :
    (joinEnds texts more).length + 1 = texts.length + more.length := by
  induction texts with
  | nil => exact absurd rfl h
  | cons text rest ih =>
      cases rest with
      | nil =>
          cases more with
          | nil => exact absurd rfl hMore
          | cons first more => simp [joinEnds, Nat.add_comm]
      | cons next rest =>
          have hRest := ih (List.cons_ne_nil next rest)
          rw [joinEnds_cons text (List.cons_ne_nil next rest)]
          simp only [List.length_cons] at hRest ⊢
          omega

/-- Texts with a separator between them stay as they are when they are joined to others. -/
theorem intercalate_joinEnds (separator : String) (texts more : List String) :
    separator.intercalate (joinEnds texts more) =
      separator.intercalate texts ++ separator.intercalate more := by
  induction texts with
  | nil => rw [joinEnds, String.intercalate_nil, String.empty_append]
  | cons text rest ih =>
      cases rest with
      | nil =>
          cases more with
          | nil => rw [joinEnds_nil, String.intercalate_nil, String.append_empty]
          | cons first more =>
              rw [joinEnds, String.intercalate_cons_append, String.intercalate_singleton]
      | cons next rest =>
          have hNext := joinEnds_ne_nil (List.cons_ne_nil next rest) more
          rw [joinEnds_cons text (List.cons_ne_nil next rest),
            String.intercalate_cons_of_ne_nil hNext, ih, String.intercalate_cons_cons,
            ← String.append_assoc]

/-! ## Trees -/

namespace Tree

theorem fragments_ne_nil (tree : Tree) : tree.fragments ≠ [] := by
  cases tree <;> exact List.cons_ne_nil _ _

/-- Literal text of two trees, one behind the other. -/
theorem fragments_append (first second : Tree) :
    (first.append second).fragments = joinEnds first.fragments second.fragments := by
  induction first with
  | text before => cases second <;> rfl
  | direct before value rest ih =>
      rw [append, fragments, fragments, ih, joinEnds_cons before rest.fragments_ne_nil]
  | accessor before a rest ih =>
      rw [append, fragments, fragments, ih, joinEnds_cons before rest.fragments_ne_nil]
  | block before driver body rest _ ih =>
      rw [append, fragments, fragments, ih, ← List.cons_append, ← List.cons_append,
        joinEnds_append (before :: body.fragments) rest.fragments_ne_nil]

theorem slots_prepend (more : String) (tree : Tree) : (tree.prepend more).slots = tree.slots := by
  cases tree <;> rfl

/-- Slots of two trees, one behind the other. -/
theorem slots_append (first second : Tree) :
    (first.append second).slots = first.slots ++ second.slots := by
  induction first with
  | text before => exact slots_prepend before second
  | direct before value rest ih => rw [append, slots, slots, ih, List.cons_append]
  | accessor before a rest ih => rw [append, slots, slots, ih, List.cons_append]
  | block before driver body rest _ ih =>
      rw [append, slots, slots, ih, List.cons_append, List.append_assoc, List.cons_append]

end Tree

end Stencil
