import Mathlib.Data.List.Nodup
import Mathlib.Data.String.Basic
import Stencil.Value

/-!
# Members of an object

An object that is put together member by member has them in the order of their names, and so
each name once, whatever names come in and in whatever order. Looking a name up then finds the
member of that name and no other.

## Main results

* `sorted_ofList` — the members of an object are sorted by name.
* `find?_eq_some_iff`, `find?_eq_none_iff` — what is found under a name.
-/

namespace Stencil.Members

variable {name : String} {value found : Value} {members : List (String × Value)}

/-- Each name comes before those of the members behind it. -/
def Sorted (members : List (String × Value)) : Prop :=
  members.Pairwise fun m m' => m.1 < m'.1

/-! ## Order -/

theorem mem_of_mem_insert {m : String × Value} (h : m ∈ insert name value members) :
    m = (name, value) ∨ m ∈ members := by
  induction members with
  | nil => exact .inl (List.mem_singleton.mp h)
  | cons first rest ih =>
      obtain ⟨k, v⟩ := first
      unfold insert at h
      split at h
      · rcases List.mem_cons.mp h with hNew | hRest
        · exact .inl hNew
        · exact .inr (List.mem_cons_of_mem _ hRest)
      · split at h
        · exact List.mem_cons.mp h
        · rcases List.mem_cons.mp h with hFirst | hRest
          · exact .inr (hFirst ▸ List.mem_cons_self)
          · exact (ih hRest).imp id (List.mem_cons_of_mem _)

/-- A member is stored in its place. -/
theorem Sorted.insert (h : Sorted members) (name : String) (value : Value) :
    Sorted (insert name value members) := by
  induction members with
  | nil => exact List.pairwise_singleton _ _
  | cons first rest ih =>
      obtain ⟨k, v⟩ := first
      obtain ⟨hFirst, hRest⟩ := List.pairwise_cons.mp h
      unfold Members.insert
      split
      · rename_i hSame
        subst hSame
        exact List.pairwise_cons.mpr ⟨hFirst, hRest⟩
      · rename_i hOther
        split
        · rename_i hLess
          refine List.pairwise_cons.mpr ⟨?_, h⟩
          intro m hMem
          rcases List.mem_cons.mp hMem with rfl | hBehind
          · exact hLess
          · exact lt_trans hLess (hFirst m hBehind)
        · rename_i hNotLess
          have hGreater : k < name := lt_of_le_of_ne (not_lt.mp hNotLess) hOther
          refine List.pairwise_cons.mpr ⟨?_, ih hRest⟩
          intro m hMem
          rcases mem_of_mem_insert hMem with rfl | hOld
          · exact hGreater
          · exact hFirst m hOld

/-- **The members of an object are sorted**, in whatever order they are put together. -/
theorem sorted_ofList (members : List (String × Value)) : Sorted (ofList members) := by
  -- The members stored so far are sorted, whatever is still to come.
  have hFold : ∀ start : List (String × Value), Sorted start →
      Sorted (members.foldl (fun sorted m => Members.insert m.1 m.2 sorted) start) := by
    induction members with
    | nil => exact fun start hStart => hStart
    | cons m rest ih => exact fun start hStart => ih _ (hStart.insert m.1 m.2)
  exact hFold [] List.Pairwise.nil

theorem Sorted.nodup (h : Sorted members) : (members.map Prod.fst).Nodup :=
  List.pairwise_map.mpr (h.imp ne_of_lt)

/-! ## Looking up -/

theorem mem_of_find? (h : find? name members = some found) : (name, found) ∈ members := by
  induction members with
  | nil => cases h
  | cons first rest ih =>
      obtain ⟨k, v⟩ := first
      unfold find? at h
      split at h
      · rename_i hName
        rw [← hName, ← Option.some.inj h]
        exact List.mem_cons_self
      · exact List.mem_cons_of_mem _ (ih h)

/-- A name that no member has is not found, and no other. -/
theorem find?_eq_none_iff : find? name members = none ↔ name ∉ members.map Prod.fst := by
  induction members with
  | nil => exact iff_of_true rfl List.not_mem_nil
  | cons first rest ih =>
      obtain ⟨k, v⟩ := first
      by_cases hName : k = name
      · simp [find?, hName]
      · simp [find?, hName, Ne.symm hName, ih]

/-- Among members of different names, a name finds its own member. -/
theorem find?_eq_some_iff (hNames : (members.map Prod.fst).Nodup) :
    find? name members = some found ↔ (name, found) ∈ members := by
  constructor
  · exact mem_of_find?
  · intro hMem
    cases hFind : find? name members with
    | none => exact absurd (List.mem_map_of_mem hMem) (find?_eq_none_iff.mp hFind)
    | some other =>
        have hSame : (name, other) = (name, found) :=
          List.inj_on_of_nodup_map hNames (mem_of_find? hFind) hMem rfl
        rw [(Prod.mk.inj hSame).2]

end Stencil.Members
