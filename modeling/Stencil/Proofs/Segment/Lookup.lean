import Stencil.Proofs.Numeral.Digits
import Stencil.Proofs.Value.Members
import Stencil.Segment

/-!
# What segments find

A name and a position are looked up in opposite ways: in a list the name is read as a position,
in an object the position is written as a name. The two agree where the name is the numeral of
the position as it is written. Other numerals of the same position find the same item of a list,
but in an object each of them is a name of its own.

## Main results

* `lookup_key_ofNat` — the written numeral of a position finds what the position finds.
* `lookup_key_array_eq_some_iff` — which names find an item of a list, and which item.
* `lookup_spec` — what names and positions find in values of every kind.
-/

namespace Stencil.Segment

variable {name : String} {n : Nat} {items : List Value} {found : Value}

/-! ## Lists -/

/-- **Names of items.** A name finds an item exactly if it is a numeral of the item's position. -/
theorem lookup_key_array_eq_some_iff (hItems : items.length < 2 ^ 64) :
    lookup (.key name) (.array items) = some found ↔
      ∃ m, Numeral.Denotes name m ∧ items[m]? = some found := by
  show (Numeral.position? name).bind (items[·]?) = some found ↔ _
  rw [Option.bind_eq_some_iff]
  constructor
  · rintro ⟨m, hName, hItem⟩
    exact ⟨m, (Numeral.position?_eq_some_iff_denotes.mp hName).1, hItem⟩
  · rintro ⟨m, hName, hItem⟩
    -- A position in a list fits, since the list does.
    have hFits : m < Numeral.positionLimit :=
      lt_trans (List.getElem?_eq_some_iff.mp hItem).1 hItems
    exact ⟨m, Numeral.position?_eq_some_iff_denotes.mpr ⟨hName, hFits⟩, hItem⟩

/-- A numeral finds the item at its position, and nothing if the list ends before. -/
theorem lookup_key_array_of_denotes (hItems : items.length < 2 ^ 64)
    (hName : Numeral.Denotes name n) :
    lookup (.key name) (.array items) = items[n]? := by
  apply Option.ext
  intro found
  rw [lookup_key_array_eq_some_iff hItems]
  constructor
  · rintro ⟨m, hOther, hItem⟩
    rwa [hName.unique hOther]
  · exact fun hItem => ⟨n, hName, hItem⟩

/-! ## Both kinds of segments -/

/-- The written numeral of a position finds what the position finds. -/
theorem lookup_key_ofNat (hFits : n < 2 ^ 64) (v : Value) :
    lookup (.key (Numeral.ofNat n)) v = lookup (.index n) v := by
  cases v with
  | array items => exact lookup_key_array (Numeral.position?_ofNat hFits) items
  | _ => rfl

/-- Another name than the written numeral does not see the member that the position finds. -/
theorem lookup_of_ne_ofNat (hName : name ≠ Numeral.ofNat n) (v : Value)
    (members : List (String × Value)) :
    lookup (.index n) (.object (Members.insert (Numeral.ofNat n) v members)) = some v ∧
      lookup (.key name) (.object (Members.insert (Numeral.ofNat n) v members)) =
        lookup (.key name) (.object members) :=
  ⟨Members.find?_insert_self _ v members, Members.find?_insert_ne hName v members⟩

/-- Nothing is found in what is no list and no object. -/
theorem lookup_eq_none {v : Value} (hList : ∀ items, v ≠ .array items)
    (hObject : ∀ members, v ≠ .object members) (segment : Segment) :
    lookup segment v = none := by
  cases v with
  | array items => exact absurd rfl (hList items)
  | object members => exact absurd rfl (hObject members)
  | _ => cases segment <;> rfl

/-- **What segments find.** The written numeral of a position finds what the position finds, in
every value. In a list a name finds an item exactly if it is a numeral of a position in the list,
be it written with zeros in front or with a plus sign, and then it is the item there; a numeral
of a position past the end finds nothing, however great it is. In an object a name finds the
member of that name only, so the other numerals of a position do not see the member that the
position finds. In any other value nothing is found. -/
theorem lookup_spec (name : String) :
    (∀ n < 2 ^ 64, ∀ v, lookup (.key (Numeral.ofNat n)) v = lookup (.index n) v) ∧
      (∀ items : List Value, items.length < 2 ^ 64 →
        (∀ found, lookup (.key name) (.array items) = some found ↔
          ∃ m, Numeral.Denotes name m ∧ items[m]? = some found) ∧
        ∀ m, Numeral.Denotes name m → items.length ≤ m →
          lookup (.key name) (.array items) = none) ∧
      (∀ members : List (String × Value),
        (lookup (.key name) (.object members) = none ↔ name ∉ members.map Prod.fst) ∧
        ((members.map Prod.fst).Nodup → ∀ found,
          lookup (.key name) (.object members) = some found ↔ (name, found) ∈ members)) ∧
      (∀ n, name ≠ Numeral.ofNat n → ∀ v members,
        lookup (.index n) (.object (Members.insert (Numeral.ofNat n) v members)) = some v ∧
          lookup (.key name) (.object (Members.insert (Numeral.ofNat n) v members)) =
            lookup (.key name) (.object members)) ∧
      ∀ v, (∀ items, v ≠ .array items) → (∀ members, v ≠ .object members) →
        ∀ segment, lookup segment v = none := by
  refine ⟨fun n hFits v => lookup_key_ofNat hFits v, fun items hItems => ⟨?_, ?_⟩,
    fun members => ⟨?_, ?_⟩, fun n hName v members => lookup_of_ne_ofNat hName v members,
    fun v hList hObject segment => lookup_eq_none hList hObject segment⟩
  · exact fun found => lookup_key_array_eq_some_iff hItems
  · intro m hName hPast
    rw [lookup_key_array_of_denotes hItems hName, List.getElem?_eq_none hPast]
  · exact Members.find?_eq_none_iff
  · exact fun hNames found => Members.find?_eq_some_iff hNames

/-- The numeral `+01` finds the second item of a list, but no member of the name `1`; the numeral
of a position beyond all lists finds no item; and nothing is found in a text. -/
theorem lookup_spec_signedNumeral :
    (1 < 2 ^ 64 ∧ lookup (.key "1") (.string "ab") = lookup (.index 1) (.string "ab")) ∧
      ([Value.null, .bool true].length < 2 ^ 64 ∧ Numeral.Denotes "+01" 1 ∧
        lookup (.key "+01") (.array [.null, .bool true]) = some (.bool true)) ∧
      (Numeral.Denotes "18446744073709551617" (2 ^ 64 + 1) ∧
        [Value.null, .bool true].length ≤ 2 ^ 64 + 1 ∧
        lookup (.key "18446744073709551617") (.array [.null, .bool true]) = none) ∧
      (((Members.ofList [("+01", .null), ("1", .bool true)]).map Prod.fst).Nodup ∧
        lookup (.key "+01") (.object (Members.ofList [("+01", .null), ("1", .bool true)])) =
          some .null) ∧
      ("+01" ≠ Numeral.ofNat 1 ∧
        lookup (.key "+01") (.object (Members.insert (Numeral.ofNat 1) (.bool true) [])) = none) ∧
      lookup (.index 1) (.string "ab") = none := by
  have hShort : [Value.null, .bool true].length < 2 ^ 64 := by decide
  have hSigned : Numeral.Denotes "+01" 1 :=
    .inr ⟨['0', '1'], rfl, Numeral.digits_iff.mpr ⟨by decide, List.all_eq_true.mp rfl, rfl⟩⟩
  have hGreat : Numeral.Denotes "18446744073709551617" (2 ^ 64 + 1) :=
    .inl (Numeral.digits_iff.mpr ⟨by decide, List.all_eq_true.mp rfl, rfl⟩)
  have hPast : [Value.null, .bool true].length ≤ 2 ^ 64 + 1 := by decide
  have hNames := (Members.sorted_ofList [("+01", .null), ("1", .bool true)]).nodup
  have hOther : "+01" ≠ Numeral.ofNat 1 := by decide
  obtain ⟨hAgree, hItems, hMembers, hUnseen, hNone⟩ := lookup_spec "+01"
  refine ⟨⟨by decide, hAgree 1 (by decide) _⟩,
    ⟨hShort, hSigned, ((hItems _ hShort).1 _).mpr ⟨1, hSigned, rfl⟩⟩,
    ⟨hGreat, hPast, ((lookup_spec "18446744073709551617").2.1 _ hShort).2 _ hGreat hPast⟩,
    ⟨hNames, ((hMembers _).2 hNames _).mpr ?_⟩, ⟨hOther, (hUnseen 1 hOther _ _).2⟩,
    hNone _ (by simp) (by simp) _⟩
  exact Members.mem_of_find? rfl

end Stencil.Segment
