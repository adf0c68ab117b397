import Mathlib.Data.List.Permutation
import Stencil.Proofs.Options.Reading

/-!
# Options in all their layouts

Options are written as an object with one member for each of them, or as the list of the two. They
are read back from every layout of either: with the members in whatever order, with members of
other names anywhere between them and whatever their values, and with blanks around the tokens as
one likes. An option that is not written has its default. What is not accepted is an option that is
written twice, since it is never said which of the two would count.

## Main results

* `ofMembers?_known` — members of other names make no difference.
* `ofMembers?_eq_none_of_count` — no option is read twice.
* `written_options_read_back` — what is read from which layout.
-/

namespace Stencil.RenderOptions

/-- The options as the members of an object. -/
def members (o : RenderOptions) : List (String × Value) :=
  [(collapseName, .bool o.collapseMarkerLines), (placeholderName, .string o.placeholder)]

/-- The options as the items of a list. -/
def items (o : RenderOptions) : List Value :=
  [.bool o.collapseMarkerLines, .string o.placeholder]

/-- Those of some members that have the name of an option. -/
def known (members : List (String × Value)) : List (String × Value) :=
  members.filter fun m => m.1 = collapseName ∨ m.1 = placeholderName

variable {p q : Seen} {name : String} {v : Value}

theorem collapseName_ne_placeholderName : collapseName ≠ placeholderName := by decide

/-! ## Members of other names -/

theorem Seen.has_of_other (hCollapse : name ≠ collapseName)
    (hPlaceholder : name ≠ placeholderName) : p.has name = false := by
  simp [has, hCollapse, hPlaceholder]

/-- A member of another name is read over: nothing more has been read after it. -/
theorem Seen.storeAll?_known (members : List (String × Value)) :
    p.storeAll? members = p.storeAll? (known members) := by
  induction members generalizing p with
  | nil => rfl
  | cons member rest ih =>
      obtain ⟨name, v⟩ := member
      by_cases hKnown : name = collapseName ∨ name = placeholderName
      · rw [known, List.filter_cons_of_pos (by simpa using hKnown), storeAll?, storeAll?]
        simp only [ih, known]
      · obtain ⟨hCollapse, hPlaceholder⟩ := not_or.mp hKnown
        rw [known, List.filter_cons_of_neg (by simpa using hKnown), storeAll?,
          has_of_other hCollapse hPlaceholder, if_neg Bool.false_ne_true, store?, if_neg hCollapse,
          if_neg hPlaceholder, Option.bind_some, ih, known]

/-- **Members of other names make no difference**, whatever their values are. -/
theorem ofMembers?_known (members : List (String × Value)) :
    ofMembers? members = ofMembers? (known members) := by
  rw [ofMembers?, ofMembers?, Seen.storeAll?_known]

/-! ## Options that are written once -/

/-- The two members are taken in whatever order. -/
theorem ofMembers?_of_perm {o : RenderOptions} {written : List (String × Value)}
    (h : (known written).Perm o.members) : ofMembers? written = some o := by
  rw [ofMembers?_known]
  rcases List.perm_pair.mp h with hOrder | hOrder <;> rw [hOrder] <;> rfl

/-! ## Options that are written twice -/

/-- What has been met stays met. -/
theorem Seen.has_of_store? {other : String} (h : p.store? other v = some q)
    (hHas : p.has name = true) : q.has name = true := by
  simp only [has, Bool.or_eq_true, Bool.and_eq_true] at hHas ⊢
  unfold store? at h
  split at h
  · obtain ⟨b, -, rfl⟩ := Option.map_eq_some_iff.mp h
    exact hHas.imp (fun hMet => ⟨hMet.1, rfl⟩) id
  · split at h
    · obtain ⟨s, -, rfl⟩ := Option.map_eq_some_iff.mp h
      exact hHas.imp id fun hMet => ⟨hMet.1, rfl⟩
    · rwa [← Option.some.inj h]

/-- A member that has been taken has been met. -/
theorem Seen.has_self_of_store? (hName : name = collapseName ∨ name = placeholderName)
    (h : p.store? name v = some q) : q.has name = true := by
  rcases hName with rfl | rfl
  · rw [store?, if_pos rfl] at h
    obtain ⟨b, -, rfl⟩ := Option.map_eq_some_iff.mp h
    rfl
  · rw [store?, if_neg collapseName_ne_placeholderName.symm, if_pos rfl] at h
    obtain ⟨s, -, rfl⟩ := Option.map_eq_some_iff.mp h
    simp [has]

/-- A member that has been met before is not taken, wherever it stands. -/
theorem Seen.storeAll?_eq_none_of_has {written : List (String × Value)}
    (hHas : p.has name = true) (hMem : name ∈ written.map Prod.fst) :
    p.storeAll? written = none := by
  induction written generalizing p with
  | nil => cases hMem
  | cons member rest ih =>
      obtain ⟨other, v⟩ := member
      rw [storeAll?]
      split
      · rfl
      · rename_i hNew
        rcases List.mem_cons.mp hMem with rfl | hRest
        · exact absurd hHas hNew
        · rw [Option.bind_eq_none_iff]
          exact fun q hStore => ih (has_of_store? hStore hHas) hRest

theorem Seen.storeAll?_eq_none_of_count {written : List (String × Value)}
    (hName : name = collapseName ∨ name = placeholderName)
    (hTwice : 2 ≤ (written.map Prod.fst).count name) : p.storeAll? written = none := by
  induction written generalizing p with
  | nil => simp at hTwice
  | cons member rest ih =>
      obtain ⟨other, v⟩ := member
      rw [storeAll?]
      split
      · rfl
      · rw [Option.bind_eq_none_iff]
        intro q hStore
        rw [List.map_cons, List.count_cons] at hTwice
        by_cases hSame : other = name
        · subst hSame
          have hMem : other ∈ rest.map Prod.fst := by
            rw [← List.count_pos_iff]
            simp only [beq_self_eq_true, if_true] at hTwice
            omega
          exact storeAll?_eq_none_of_has (has_self_of_store? hName hStore) hMem
        · refine ih ?_
          simpa [hSame] using hTwice

/-- **No option is read twice**, wherever it stands for the first and for the second time. -/
theorem ofMembers?_eq_none_of_count {written : List (String × Value)}
    (hName : name = collapseName ∨ name = placeholderName)
    (hTwice : 2 ≤ (written.map Prod.fst).count name) : ofMembers? written = none := by
  rw [ofMembers?, Seen.storeAll?_eq_none_of_count hName hTwice, Option.map_none]

/-! ## Layouts -/

theorem ofJson_of_ofValue? {o : RenderOptions} {text : String} (hText : v.LaidOutAs text)
    (h : ofValue? v = some o) : ofJson text = .ok o := by
  have hRead := ofJson_of_laidOutAs hText
  rwa [h] at hRead

theorem exists_fault_of_ofValue? {text : String} (hText : v.LaidOutAs text)
    (h : ofValue? v = none) : ∃ fault, ofJson text = .error (.options (.json fault)) := by
  have hRead := ofJson_of_laidOutAs hText
  rwa [h] at hRead

/-- **Options are read back** from all their layouts, of which the compact text is one. An object
gives the options of the members for them, in whatever order those two stand and whatever members
of other names stand before, between and behind them; where one of the two is not written, or
neither, it gives the default for what is missing; and it is refused if one of them is written
twice. A list gives the options that are its items, and the defaults for the items that it ends
before. -/
theorem written_options_read_back (o : RenderOptions) :
    (∀ v : Value, v.LaidOutAs v.json) ∧
      (∀ (written : List (String × Value)) (text : String),
        (Value.object written).LaidOutAs text →
          ((known written).Perm o.members → ofJson text = .ok o) ∧
          (known written = [(collapseName, .bool o.collapseMarkerLines)] →
            ofJson text = .ok { collapseMarkerLines := o.collapseMarkerLines }) ∧
          (known written = [(placeholderName, .string o.placeholder)] →
            ofJson text = .ok { placeholder := o.placeholder }) ∧
          (known written = [] → ofJson text = .ok {}) ∧
          ∀ name ∈ [collapseName, placeholderName], 2 ≤ (written.map Prod.fst).count name →
            ∃ fault, ofJson text = .error (.options (.json fault))) ∧
      ∀ text : String,
        ((Value.array o.items).LaidOutAs text → ofJson text = .ok o) ∧
        ((Value.array [.bool o.collapseMarkerLines]).LaidOutAs text →
          ofJson text = .ok { collapseMarkerLines := o.collapseMarkerLines }) ∧
        ((Value.array []).LaidOutAs text → ofJson text = .ok {}) := by
  have hKnown : ∀ {written kept : List (String × Value)} {text : String},
      (Value.object written).LaidOutAs text → known written = kept →
        ∀ {read : RenderOptions}, ofMembers? kept = some read → ofJson text = .ok read := by
    intro written kept text hText hKept read hRead
    refine ofJson_of_ofValue? hText ?_
    rw [ofValue?, ofMembers?_known, hKept, hRead]
  refine ⟨Value.laidOutAs_json, fun written text hText => ⟨?_, ?_, ?_, ?_, ?_⟩,
    fun text => ⟨?_, ?_, ?_⟩⟩
  · exact fun hPerm => ofJson_of_ofValue? hText (ofMembers?_of_perm hPerm)
  · exact fun hKept => hKnown hText hKept rfl
  · exact fun hKept => hKnown hText hKept rfl
  · exact fun hKept => hKnown hText hKept rfl
  · intro name hName hTwice
    have hOption : name = collapseName ∨ name = placeholderName := by simpa using hName
    exact exists_fault_of_ofValue? hText (ofMembers?_eq_none_of_count hOption hTwice)
  · exact fun hText => ofJson_of_ofValue? hText rfl
  · exact fun hText => ofJson_of_ofValue? hText rfl
  · exact fun hText => ofJson_of_ofValue? hText rfl

/-- Options with a placeholder that is not written as it is. -/
def quoted : RenderOptions := ⟨true, "\"\nж😀"⟩

/-- Those options among members of other names, one of which has a member of a known name in it. -/
def scattered : List (String × Value) :=
  [("a", .array [.ofInt (-30), .object [(collapseName, .null)]]),
    (placeholderName, .string quoted.placeholder), ("b", .string "\x7d,"),
    (collapseName, .bool true)]

/-- They are read back from compact texts with both members, one of them and none, and from lists,
one of them with blanks; with a placeholder in front of and behind another member the text is
refused. -/
theorem written_options_read_back_scattered :
    ((known scattered).Perm quoted.members ∧
        ofJson ("\x7b\"a\":[-30,\x7b\"collapse_marker_lines\":null\x7d]," ++
          "\"undefined\":\"\\\"\\nж😀\",\"b\":\"\x7d,\",\"collapse_marker_lines\":true\x7d") =
            .ok quoted) ∧
      (known [("a", .null), (collapseName, .bool true)] = [(collapseName, .bool true)] ∧
        ofJson "\x7b\"a\":null,\"collapse_marker_lines\":true\x7d" =
          .ok { collapseMarkerLines := true }) ∧
      (known [(placeholderName, .string quoted.placeholder), ("a", .null)] =
          [(placeholderName, .string quoted.placeholder)] ∧
        ofJson "\x7b\"undefined\":\"\\\"\\nж😀\",\"a\":null\x7d" =
          .ok { placeholder := quoted.placeholder }) ∧
      (known [("a", .null)] = [] ∧ ofJson "\x7b\"a\":null\x7d" = .ok {}) ∧
      (2 ≤ ([(placeholderName, Value.string ""), ("a", .null), (placeholderName, .null)].map
          Prod.fst).count placeholderName ∧
        ∃ fault, ofJson "\x7b\"undefined\":\"\",\"a\":null,\"undefined\":null\x7d" =
          .error (.options (.json fault))) ∧
      ofJson "[true,\"\\\"\\nж😀\"]" = .ok quoted ∧
      ofJson " [true\n]" = .ok { collapseMarkerLines := true } ∧ ofJson "[]" = .ok {} := by
  obtain ⟨hCompact, hObject, hList⟩ := written_options_read_back quoted
  have hText : ∀ {v : Value} {text : String}, v.json = text → v.LaidOutAs text :=
    fun hJson => hJson ▸ hCompact _
  have hBoth : (known scattered).Perm quoted.members := List.perm_pair.mpr (.inr rfl)
  have hTwice : 2 ≤ ([(placeholderName, Value.string ""), ("a", .null),
      (placeholderName, .null)].map Prod.fst).count placeholderName := by decide
  have hBlanks : (Value.array [.bool true]).LaidOutAs " [true\n]" :=
    .cons (show ∀ c ∈ [' '], Json.Cursor.isBlank c = true by simp [Json.Cursor.isBlank])
      (.cons (show ∀ c ∈ [], Json.Cursor.isBlank c = true by simp)
        (.cons (show ∀ c ∈ ['\n'], Json.Cursor.isBlank c = true by simp [Json.Cursor.isBlank])
          (.nil (show ∀ c ∈ [], Json.Cursor.isBlank c = true by simp))))
  refine ⟨⟨hBoth, (hObject scattered _ (hText (by decide +kernel))).1 hBoth⟩,
    ⟨rfl, (hObject [("a", .null), (collapseName, .bool true)] _
      (hText (by decide +kernel))).2.1 rfl⟩,
    ⟨rfl, (hObject [(placeholderName, .string quoted.placeholder), ("a", .null)] _
      (hText (by decide +kernel))).2.2.1 rfl⟩,
    ⟨rfl, (hObject [("a", .null)] _ (hText (by decide +kernel))).2.2.2.1 rfl⟩,
    ⟨hTwice, (hObject [(placeholderName, .string ""), ("a", .null), (placeholderName, .null)] _
      (hText (by decide +kernel))).2.2.2.2 placeholderName (by simp) hTwice⟩,
    (hList _).1 (hText (by decide +kernel)), (hList _).2.1 hBlanks,
    (hList _).2.2 (hText (by decide +kernel))⟩

end Stencil.RenderOptions
