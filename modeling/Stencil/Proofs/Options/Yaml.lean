import Stencil.Options.Yaml
import Stencil.Proofs.Options.Layouts
import Stencil.Proofs.Yaml.Lines

/-!
# Options in YAML texts

Two kinds of YAML texts give options: the compact JSON text of an object, which is YAML in flow
style, and lines, each of a name and a value. In both the members are taken one after the other as
they are in JSON, with one difference: in YAML every scalar is a string, so the placeholder may be
null, a truth value or a number as well, and is then its text. Whatever gives options in JSON gives
the same options in YAML.

## Main results

* `ofYaml_json`, `ofYaml_lines` — the options that the text of an object and lines give.
* `ofYaml_of_ofJson` — options in JSON are the same options in YAML.
* `ofYaml_members`, `ofYaml_lines_members` — options that are written are read back.
-/

namespace Stencil

open Yaml

namespace Value

/-- A value as it is read for a string in YAML: without brackets it is its text. -/
def spelled : Value → Value
  | .null => .string Value.null.json
  | .bool b => .string (Value.bool b).json
  | .number n => .string n.json
  | v => v

theorem spelled_of_string? {v : Value} {s : String} (h : v.string? = some s) : v.spelled = v := by
  cases v with
  | string => rfl
  | _ => cases h

end Value

namespace RenderOptions

/-! ## Nodes -/

/-- No number is written like a truth value. -/
theorem boolOfText?_number (n : Number) : boolOfText? n.json.toList = none := by
  obtain ⟨ch, rest, hText, hFirst⟩ := (isNumber_json n).exists_cons
  have hOther : ∀ {word : String} {letter : Char} {letters : List Char},
      word.toList = letter :: letters → letter ≠ '-' → letter.isDigit = false →
        String.ofList n.json.toList ≠ word := by
    intro word letter letters hWord hMinus hDigit hSame
    rw [← hSame, String.toList_ofList, hText] at hWord
    obtain rfl := (List.cons.inj hWord).1
    exact Json.ne_of_number hFirst hMinus hDigit rfl
  have hTrue : ["true", "True", "TRUE"].contains (String.ofList n.json.toList) = false := by
    simp only [List.contains_cons, List.contains_nil, Bool.or_false, Bool.or_eq_false_iff,
      beq_eq_false_iff_ne]
    exact ⟨hOther rfl (by decide) rfl, hOther rfl (by decide) rfl, hOther rfl (by decide) rfl⟩
  have hFalse : ["false", "False", "FALSE"].contains (String.ofList n.json.toList) = false := by
    simp only [List.contains_cons, List.contains_nil, Bool.or_false, Bool.or_eq_false_iff,
      beq_eq_false_iff_ne]
    exact ⟨hOther rfl (by decide) rfl, hOther rfl (by decide) rfl, hOther rfl (by decide) rfl⟩
  rw [boolOfText?, hTrue, hFalse]
  rfl

theorem boolOfNode?_node (v : Value) : boolOfNode? v.node = v.bool? := by
  cases v with
  | bool b => cases b <;> rfl
  | number n => exact boolOfText?_number n
  | null | string | array | object => rfl

theorem textOfNode?_node (v : Value) : textOfNode? v.node = v.spelled.string? := by
  cases v <;> simp [Value.node, textOfNode?, Value.spelled, Value.string?]

/-! ## Members -/

/-- A member as it is read in YAML, where the placeholder is read for a string. -/
def spelledMember (m : String × Value) : String × Value :=
  (m.1, if m.1 = placeholderName then m.2.spelled else m.2)

variable {p q : Seen} {name : String} {v : Value} {members : List (String × Value)}
  {o : RenderOptions}

theorem takePair?_member (style : Style) (name : String) (v : Value) :
    takePair? p (.scalar {} style name.toList, v.node) =
      if p.has name then none else p.store? name (spelledMember (name, v)).2 := by
  have hName : textOfNode? (.scalar {} style name.toList) = some name :=
    congrArg some String.ofList_toList
  rw [takePair?, hName]
  simp only [Option.bind_eq_bind, Option.bind_some, boolOfNode?_node, textOfNode?_node]
  split
  · rfl
  · rw [Seen.store?, spelledMember]
    by_cases hPlaceholder : name = placeholderName
    · subst hPlaceholder
      rw [if_neg collapseName_ne_placeholderName.symm, if_pos rfl,
        if_neg collapseName_ne_placeholderName.symm, if_pos rfl, if_pos rfl, Option.map_eq_bind]
      rfl
    · rw [if_neg hPlaceholder, if_neg hPlaceholder, Option.map_eq_bind, if_neg hPlaceholder]
      rfl

theorem foldlM_takePair? (style : Style) (members : List (String × Value)) :
    (Value.memberPairs style members).foldlM takePair? p =
      p.storeAll? (members.map spelledMember) := by
  rw [Value.memberPairs]
  induction members generalizing p with
  | nil => rfl
  | cons member rest ih =>
      obtain ⟨name, v⟩ := member
      rw [List.map_cons, List.foldlM_cons, takePair?_member, List.map_cons, spelledMember,
        Seen.storeAll?]
      split
      · rfl
      · exact congrArg _ (funext fun q => ih)

/-- What is taken from a member in JSON is taken from it in YAML. -/
theorem Seen.store?_spelledMember (h : p.store? name v = some q) :
    p.store? name (spelledMember (name, v)).2 = some q := by
  by_cases hName : name = placeholderName
  · subst hName
    have hSpelled : v.spelled = v := by
      rw [store?, if_neg collapseName_ne_placeholderName.symm, if_pos rfl] at h
      obtain ⟨s, hString, -⟩ := Option.map_eq_some_iff.mp h
      exact Value.spelled_of_string? hString
    rwa [spelledMember, if_pos rfl, hSpelled]
  · rwa [spelledMember, if_neg hName]

theorem Seen.storeAll?_spelledMember (h : p.storeAll? members = some q) :
    p.storeAll? (members.map spelledMember) = some q := by
  induction members generalizing p with
  | nil => exact h
  | cons member rest ih =>
      obtain ⟨name, v⟩ := member
      rw [storeAll?] at h
      split at h
      · cases h
      · rename_i hNew
        obtain ⟨r, hStore, hRest⟩ := Option.bind_eq_some_iff.mp h
        rw [List.map_cons, spelledMember, storeAll?, if_neg hNew]
        exact Option.bind_eq_some_iff.mpr ⟨r, store?_spelledMember hStore, ih hRest⟩

theorem map_fst_spelledMember (members : List (String × Value)) :
    (members.map spelledMember).map Prod.fst = members.map Prod.fst := by
  rw [List.map_map]
  rfl

/-! ## Texts of objects -/

/-- The options of a text that is a mapping of members, however the names are written. -/
theorem ofYaml_of_mapping {text : String} {style : Style}
    (h : mapping? text = some (Value.memberPairs style members)) :
    ofYaml text =
      match ofMembers? (members.map spelledMember) with
      | some o => .ok o
      | none => .error (.options .yaml) := by
  rw [ofYaml, h, Option.bind_some, foldlM_takePair?, ofMembers?]
  cases Seen.storeAll? {} (members.map spelledMember) <;> rfl

/-- **The options that the text of an object gives in YAML.** -/
theorem ofYaml_json (h : (Value.object members).IsFlow) :
    ofYaml (Value.object members).json =
      match ofMembers? (members.map spelledMember) with
      | some o => .ok o
      | none => .error (.options .yaml) := ofYaml_of_mapping (mapping?_json h)

/-- What is no string in JSON is one in YAML. -/
example : ofYaml "\x7b\"undefined\":null\x7d" = .ok { placeholder := "null" } := by
  have hText : "\x7b\"undefined\":null\x7d" = (Value.object [(placeholderName, .null)]).json := by
    decide +kernel
  have hFlow : (Value.object [(placeholderName, .null)]).IsFlow :=
    ⟨by decide +kernel, by decide +kernel⟩
  rw [hText, ofYaml_json hFlow]
  rfl

/-- **Options in JSON are the same options in YAML.** -/
theorem ofYaml_of_ofJson (hFlow : (Value.object members).IsFlow)
    (h : ofJson (Value.object members).json = .ok o) :
    ofYaml (Value.object members).json = .ok o := by
  have hRead := ofJson_of_laidOutAs (Value.laidOutAs_json (.object members))
  rw [ofValue?, ofMembers?] at hRead
  rw [ofYaml_json hFlow, ofMembers?]
  cases hStored : Seen.storeAll? {} members with
  | none =>
      rw [hStored] at hRead
      obtain ⟨fault, hFault⟩ := hRead
      rw [hFault] at h
      cases h
  | some seen =>
      rw [hStored] at hRead
      rw [Seen.storeAll?_spelledMember hStored]
      exact hRead.symm.trans h

/-- **No option is read twice**, in YAML as in JSON. -/
theorem ofYaml_eq_error_of_count (hFlow : (Value.object members).IsFlow)
    (hName : name = collapseName ∨ name = placeholderName)
    (hTwice : 2 ≤ (members.map Prod.fst).count name) :
    ofYaml (Value.object members).json = .error (.options .yaml) := by
  rw [← map_fst_spelledMember] at hTwice
  rw [ofYaml_json hFlow, ofMembers?_eq_none_of_count hName hTwice]

/-- All that is written around a placeholder can stand in a YAML text. -/
theorem isFlow_members (o : RenderOptions)
    (h : fitsLine (Json.quoteChars o.placeholder.toList) = true) :
    (Value.object o.members).IsFlow where
  text := by
    have hTokens : (Value.object o.members).tokens =
        ['\x7b'] :: Json.quoteChars collapseName.toList :: [':'] ::
          ((Value.bool o.collapseMarkerLines).tokens ++
            [[','], Json.quoteChars placeholderName.toList, [':'],
              Json.quoteChars o.placeholder.toList, ['\x7d']]) := rfl
    have hBool : ∀ b, (Value.bool b).tokens.all fitsLine = true := by decide
    have hCollapse : fitsLine (Json.quoteChars collapseName.toList) = true := by decide +kernel
    have hPlaceholder : fitsLine (Json.quoteChars placeholderName.toList) = true := by
      decide +kernel
    have hMarks : fitsLine ['\x7b'] = true ∧ fitsLine [':'] = true ∧ fitsLine [','] = true ∧
        fitsLine ['\x7d'] = true := by decide
    rw [← Value.flatten_tokens, fitsLine_flatten, hTokens]
    simp [hBool, hCollapse, hPlaceholder, h, hMarks]
  names := by
    show ∀ name ∈ [collapseName, placeholderName], _
    simp only [List.forall_mem_cons]
    exact ⟨by decide +kernel, by decide +kernel, nofun⟩

/-- **Options that are written as an object are read back**, if the placeholder fits a line. -/
theorem ofYaml_members (o : RenderOptions)
    (h : fitsLine (Json.quoteChars o.placeholder.toList) = true) :
    ofYaml (Value.object o.members).json = .ok o := by
  rw [ofYaml_json (isFlow_members o h)]
  rfl

/-! ## Lines -/

/-- **The options that lines give**, of a name and a value each. -/
theorem ofYaml_lines (h : ∀ m ∈ members, Value.IsEntry m) :
    ofYaml (Value.lines members) =
      match ofMembers? (members.map spelledMember) with
      | some o => .ok o
      | none => .error (.options .yaml) := ofYaml_of_mapping (mapping?_lines h)

theorem isEntry_members (o : RenderOptions)
    (h : fitsLine (Json.quoteChars o.placeholder.toList) = true) :
    ∀ m ∈ o.members, Value.IsEntry m := by
  have hCollapse : Value.IsPlainName collapseName :=
    ⟨by decide +kernel, List.all_eq_true.mp (by decide +kernel), by decide +kernel⟩
  have hPlaceholder : Value.IsPlainName placeholderName :=
    ⟨by decide +kernel, List.all_eq_true.mp (by decide +kernel), by decide +kernel⟩
  have hBool : ∀ b, fitsLine (Value.bool b).json.toList = true := by decide
  have hText : fitsLine (Value.string o.placeholder).json.toList = true := by
    rwa [← Value.flatten_tokens, Value.tokens, List.flatten_singleton]
  simp only [members, List.forall_mem_cons]
  exact ⟨⟨hCollapse, rfl, hBool _⟩, ⟨hPlaceholder, rfl, hText⟩, nofun⟩

/-- **Options that are written in lines are read back**, if the placeholder fits its line. -/
theorem ofYaml_lines_members (o : RenderOptions)
    (h : fitsLine (Json.quoteChars o.placeholder.toList) = true) :
    ofYaml (Value.lines o.members) = .ok o := by
  rw [ofYaml_lines (isEntry_members o h)]
  rfl

/-- An empty placeholder is written as an empty string. -/
example : ofYaml "collapse_marker_lines: true\nundefined: \"\"\n" = .ok ⟨true, ""⟩ := by
  have hText : "collapse_marker_lines: true\nundefined: \"\"\n" =
      Value.lines (RenderOptions.mk true "").members := by decide +kernel
  rw [hText]
  exact ofYaml_lines_members _ rfl

end RenderOptions

end Stencil
