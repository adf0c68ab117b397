import Stencil.Proofs.Json.Floats
import Stencil.Proofs.Json.Tokens
import Stencil.Proofs.Yaml.Scanning
import Stencil.Yaml.Document

/-!
# Objects in flow style

The compact JSON text of an object is also a YAML text on one line, in flow style. Its brackets,
commas and colons are tokens, its strings are scalars between double quotes and its other words are
plain scalars, so it is read as the mapping that has the same shape.

## Main results

* `leads_value` — reading tokens leads from a value to behind it.
* `tokens?_json` — the tokens of the text of an object.
* `readNode_flowTokens` — the node of these tokens.
* `mapping?_json` — the text of an object is a mapping of its members.
-/

namespace Stencil

open Yaml
open String (utf8Len)

namespace Value

/-- The token in front of an entry: a comma, save for the first one. -/
def flowSeparator (first : Bool) : List Token := if first then [] else [.comma]

@[simp] theorem reverse_flowSeparator (first : Bool) :
    (flowSeparator first).reverse = flowSeparator first := by
  cases first <;> rfl

mutual

/-- The YAML tokens of the text of a value. -/
def flowTokens : Value → List Token
  | .null => [.scalar .plain Value.null.json.toList]
  | .bool b => [.scalar .plain (Value.bool b).json.toList]
  | .number n => [.scalar .plain n.json.toList]
  | .string s => [.scalar .doubleQuoted s.toList]
  | .array items => .flowSequence :: itemFlowTokens true items
  | .object members => .flowMapping :: memberFlowTokens true members

/-- The YAML tokens of some items of a list, its closing bracket included. -/
def itemFlowTokens (first : Bool) : List Value → List Token
  | [] => [.flowSequenceEnd]
  | v :: rest => flowSeparator first ++ (v.flowTokens ++ itemFlowTokens false rest)

/-- The YAML tokens of some members of an object, its closing bracket included. -/
def memberFlowTokens (first : Bool) : List (String × Value) → List Token
  | [] => [.flowMappingEnd]
  | (name, v) :: rest =>
    flowSeparator first ++ .key :: .scalar .doubleQuoted name.toList :: .value ::
      (v.flowTokens ++ memberFlowTokens false rest)

end

mutual

/-- The names of members in a value, at any depth. -/
def names : Value → List String
  | .array items => itemNames items
  | .object members => memberNames members
  | _ => []

/-- The names of members in some items. -/
def itemNames : List Value → List String
  | [] => []
  | v :: rest => v.names ++ itemNames rest

/-- The names of some members and of those in their values. -/
def memberNames : List (String × Value) → List String
  | [] => []
  | (name, v) :: rest => name :: (v.names ++ memberNames rest)

end

/-- The text of a value may be read as YAML: it fits a line, and no name is longer than a key may
be. -/
structure IsFlow (v : Value) : Prop where
  text : fitsLine v.json.toList = true
  names : ∀ name ∈ v.names, utf8Len (Json.quoteChars name.toList) ≤ Layout.keyReach

mutual

/-- The node of the text of a value. -/
def node : Value → Node
  | .null => .scalar {} .plain Value.null.json.toList
  | .bool b => .scalar {} .plain (Value.bool b).json.toList
  | .number n => .scalar {} .plain n.json.toList
  | .string s => .scalar {} .doubleQuoted s.toList
  | .array items => .sequence {} (itemNodes items)
  | .object members => .mapping {} (memberNodes members)

/-- The nodes of some items. -/
def itemNodes : List Value → List Node
  | [] => []
  | v :: rest => v.node :: itemNodes rest

/-- The pairs of nodes of some members. -/
def memberNodes : List (String × Value) → List (Node × Node)
  | [] => []
  | (name, v) :: rest => (.scalar {} .doubleQuoted name.toList, v.node) :: memberNodes rest

end

/-- The pairs of nodes of some members whose names are all written in one style. -/
def memberPairs (style : Style) (members : List (String × Value)) : List (Node × Node) :=
  members.map fun m => (.scalar {} style m.1.toList, m.2.node)

theorem memberNodes_eq (members : List (String × Value)) :
    memberNodes members = memberPairs .doubleQuoted members := by
  induction members with
  | nil => rfl
  | cons m rest ih => exact congrArg _ ih

/-- The text of a value starts with a scalar or an opening bracket. -/
theorem exists_flowTokens (v : Value) :
    ∃ token rest, v.flowTokens = token :: rest ∧
      ((∃ style text, token = .scalar style text) ∨ token = .flowSequence ∨
        token = .flowMapping) := by
  cases v with
  | array items => exact ⟨_, _, rfl, .inr (.inl rfl)⟩
  | object members => exact ⟨_, _, rfl, .inr (.inr rfl)⟩
  | _ => exact ⟨_, _, rfl, .inl ⟨_, _, rfl⟩⟩

end Value

namespace Yaml

open Json (quoteChars separator IsNumber IsRow)

namespace Layout

variable {b : Bool} {n : Nat} {tokens : List Token} {ahead : List (List Char)}

/-! ## Values -/

/-- A written number is a word. -/
theorem isWordChar_of_isNumber {cs : List Char} (h : IsNumber cs) :
    ∀ ch ∈ cs, isWordChar ch = true := by
  have hDigits : ∀ {ds : List Char}, IsRow ds → ∀ ch ∈ ds, isWordChar ch = true := by
    intro ds hRow ch hMem
    simp [isWordChar, Char.isAlphanum, hRow.2 ch hMem]
  have hCons : ∀ {ch : Char} {ds : List Char}, isWordChar ch = true →
      (∀ d ∈ ds, isWordChar d = true) → ∀ d ∈ ch :: ds, isWordChar d = true :=
    fun hFirst hRest => List.forall_mem_cons.mpr ⟨hFirst, hRest⟩
  have hNil : ∀ ch ∈ ([] : List Char), isWordChar ch = true := List.forall_mem_nil _
  cases h with
  | @intro sign whole fraction exponent hSign hWhole hFraction hExponent =>
      have hSignChars : ∀ ch ∈ sign, isWordChar ch = true := by
        rcases hSign with rfl | rfl
        · exact hNil
        · exact hCons rfl hNil
      have hFractionChars : ∀ ch ∈ fraction, isWordChar ch = true := by
        rcases hFraction with rfl | ⟨ds, rfl, hRow⟩
        · exact hNil
        · exact hCons rfl (hDigits hRow)
      have hExponentChars : ∀ ch ∈ exponent, isWordChar ch = true := by
        rcases hExponent with rfl | ⟨mark, sign, ds, rfl, hMark, hSign, hRow⟩
        · exact hNil
        · refine hCons (by rcases hMark with rfl | rfl <;> rfl) fun ch hMem => ?_
          rcases List.mem_append.mp hMem with hMem | hMem
          · rcases hSign with rfl | rfl | rfl
            · exact hNil ch hMem
            · exact hCons rfl hNil ch hMem
            · exact hCons rfl hNil ch hMem
          · exact hDigits hRow ch hMem
      simp only [List.forall_mem_append]
      exact ⟨hSignChars, hDigits hWhole.isRow, hFractionChars, hExponentChars⟩

theorem leads_number (x : Number) (hEnd : AtFlowMark ahead.flatten) :
    Place.Leads ⟨b, n + 1, tokens, x.json.toList :: ahead⟩
      ⟨false, n + 1, .scalar .plain x.json.toList :: tokens, ahead⟩ := by
  have hNumber := isNumber_json x
  have hNil : x.json.toList ≠ [] := by
    obtain ⟨ch, rest, hText, -⟩ := hNumber.exists_cons
    rw [hText]
    exact List.cons_ne_nil ch rest
  exact leads_word hNil (isWordChar_of_isNumber hNumber) hEnd

theorem atFlowMark_itemTokens (items : List Value) (ahead : List (List Char)) :
    AtFlowMark (Value.itemTokens false items ++ ahead).flatten := by
  cases items with
  | nil => exact ⟨_, _, rfl, rfl⟩
  | cons v rest => exact ⟨_, _, rfl, rfl⟩

theorem atFlowMark_memberTokens (members : List (String × Value)) (ahead : List (List Char)) :
    AtFlowMark (Value.memberTokens false members ++ ahead).flatten := by
  cases members with
  | nil => exact ⟨_, _, rfl, rfl⟩
  | cons m rest => exact ⟨_, _, rfl, rfl⟩

theorem leads_separator (first : Bool) :
    Place.Leads ⟨first, n + 1, tokens, separator first ++ ahead⟩
      ⟨true, n + 1, Value.flowSeparator first ++ tokens, ahead⟩ := by
  cases first with
  | true => exact fun s hAt => ⟨s, hAt, rfl⟩
  | false => exact leads_comma

mutual

/-- **Reading tokens leads from a value to behind it**, whatever brackets are open around it. -/
theorem leads_value : (v : Value) → ∀ {b : Bool} {n : Nat} {tokens : List Token}
    {ahead : List (List Char)}, AtFlowMark ahead.flatten →
      (∀ name ∈ v.names, utf8Len (quoteChars name.toList) ≤ keyReach) →
      Place.Leads ⟨b, n + 1, tokens, v.tokens ++ ahead⟩
        ⟨false, n + 1, v.flowTokens.reverse ++ tokens, ahead⟩
  | .null, _, _, _, _, hEnd, _ => leads_word nofun (List.all_eq_true.mp rfl) hEnd
  | .bool true, _, _, _, _, hEnd, _ => leads_word nofun (List.all_eq_true.mp rfl) hEnd
  | .bool false, _, _, _, _, hEnd, _ => leads_word nofun (List.all_eq_true.mp rfl) hEnd
  | .number x, _, _, _, _, hEnd, _ => leads_number x hEnd
  | .string s, _, _, _, _, _, _ => leads_string s
  | .array items, _, _, tokens, _, _, hNames => by
      rw [Value.flowTokens, List.reverse_cons, List.append_assoc]
      exact (leads_open (.inl ⟨rfl, rfl⟩)).trans (leads_items true items hNames)
  | .object members, _, _, tokens, _, _, hNames => by
      rw [Value.flowTokens, List.reverse_cons, List.append_assoc]
      exact (leads_open (.inr ⟨rfl, rfl⟩)).trans (leads_members true members hNames)

/-- Reading the tokens of some items leads behind the list that they end. -/
theorem leads_items (first : Bool) : (items : List Value) → ∀ {n : Nat}
    {tokens : List Token} {ahead : List (List Char)},
      (∀ name ∈ Value.itemNames items, utf8Len (quoteChars name.toList) ≤ keyReach) →
      Place.Leads ⟨first, n + 1, tokens, Value.itemTokens first items ++ ahead⟩
        ⟨false, n, (Value.itemFlowTokens first items).reverse ++ tokens, ahead⟩
  | [], _, _, _, _ => leads_close (.inl ⟨rfl, rfl⟩)
  | v :: rest, _, tokens, ahead, hNames => by
      rw [Value.itemNames, List.forall_mem_append] at hNames
      have hTokens : (Value.itemFlowTokens first (v :: rest)).reverse ++ tokens =
          (Value.itemFlowTokens false rest).reverse ++
            (v.flowTokens.reverse ++ (Value.flowSeparator first ++ tokens)) := by
        simp [Value.itemFlowTokens]
      rw [Value.itemTokens_cons_append, hTokens]
      exact (leads_separator first).trans ((leads_value v (atFlowMark_itemTokens rest ahead)
        hNames.1).trans (leads_items false rest hNames.2))

/-- Reading the tokens of some members leads behind the object that they end. -/
theorem leads_members (first : Bool) : (members : List (String × Value)) → ∀ {n : Nat}
    {tokens : List Token} {ahead : List (List Char)},
      (∀ name ∈ Value.memberNames members, utf8Len (quoteChars name.toList) ≤ keyReach) →
      Place.Leads ⟨first, n + 1, tokens, Value.memberTokens first members ++ ahead⟩
        ⟨false, n, (Value.memberFlowTokens first members).reverse ++ tokens, ahead⟩
  | [], _, _, _, _ => leads_close (.inr ⟨rfl, rfl⟩)
  | (name, v) :: rest, _, tokens, ahead, hNames => by
      rw [Value.memberNames, List.forall_mem_cons, List.forall_mem_append] at hNames
      have hTokens : (Value.memberFlowTokens first ((name, v) :: rest)).reverse ++ tokens =
          (Value.memberFlowTokens false rest).reverse ++ (v.flowTokens.reverse ++
            (.value :: .scalar .doubleQuoted name.toList :: .key ::
              (Value.flowSeparator first ++ tokens))) := by
        simp [Value.memberFlowTokens]
      rw [Value.memberTokens_cons_append, hTokens]
      exact (leads_separator first).trans ((leads_name name hNames.1).trans
        ((leads_value v (atFlowMark_memberTokens rest ahead) hNames.2.1).trans
          (leads_members false rest hNames.2.2)))

end

end Layout

/-! ## Nodes -/

variable {handles : Handles} {block indentless : Bool} {rest tokens : List Token} {d : Nat}

/-- An item of a flow sequence, read in front of the others. -/
theorem readFlowItems_of_value (first : Bool) (v : Value) {item : Node} {behind : List Token}
    (h : readNode handles false false d (v.flowTokens ++ rest) = some (item, behind)) :
    readFlowItems handles first (d + 2) (Value.flowSeparator first ++ (v.flowTokens ++ rest)) =
      (readFlowItems handles false (d + 1) behind).map fun r => (item :: r.1, r.2) := by
  obtain ⟨token, more, hTokens, hFirst⟩ := v.exists_flowTokens
  rw [hTokens, List.cons_append] at h ⊢
  have hItem : readFlowItem handles (d + 1) (token :: (more ++ rest)) = some (item, behind) := by
    rcases hFirst with ⟨style, text, rfl⟩ | rfl | rfl <;> exact h
  rcases hFirst with ⟨style, text, rfl⟩ | rfl | rfl <;> cases first <;>
    simp [Value.flowSeparator, readFlowItems, afterComma?, hItem]

/-- The value of a member is there. -/
theorem readOptional_of_value (v : Value) {ends : Token → Bool}
    (hEnds : ends = Token.endsFlowPair ∨ ends = Token.endsBlockNode) :
    readOptional handles block indentless ends (d + 1) (v.flowTokens ++ rest) =
      readNode handles block indentless d (v.flowTokens ++ rest) := by
  obtain ⟨token, more, hTokens, hFirst⟩ := v.exists_flowTokens
  rw [hTokens]
  rcases hEnds with rfl | rfl <;> rcases hFirst with ⟨style, text, rfl⟩ | rfl | rfl <;> rfl

/-- A pair of a flow mapping, read in front of the others. -/
theorem readFlowPairs_of_member (first : Bool) (name : List Char) (v : Value) {value : Node}
    {behind : List Token}
    (h : readNode handles false false d (v.flowTokens ++ rest) = some (value, behind)) :
    readFlowPairs handles first (d + 4) (Value.flowSeparator first ++ .key ::
        .scalar .doubleQuoted name :: .value :: (v.flowTokens ++ rest)) =
      (readFlowPairs handles false (d + 3) behind).map fun r =>
        ((.scalar {} .doubleQuoted name, value) :: r.1, r.2) := by
  have hPair : readFlowPair handles (d + 3)
      (.key :: .scalar .doubleQuoted name :: .value :: (v.flowTokens ++ rest)) =
        (readOptional handles false false Token.endsFlowPair (d + 1) (v.flowTokens ++ rest)).map
          fun r => ((.scalar {} .doubleQuoted name, r.1), r.2) := rfl
  rw [readOptional_of_value v (.inl rfl), h] at hPair
  cases first <;> simp [Value.flowSeparator, readFlowPairs, afterComma?, hPair]

theorem length_flowTokens_pos (v : Value) : 0 < v.flowTokens.length := by
  obtain ⟨token, more, hTokens, -⟩ := v.exists_flowTokens
  simp [hTokens]

mutual

/-- **The node of the tokens of a value** is the value's. -/
theorem readNode_flowTokens : (v : Value) → ∀ {block indentless : Bool} {depth : Nat}
    {rest : List Token}, 4 * (v.flowTokens ++ rest).length + 2 ≤ depth →
      readNode handles block indentless depth (v.flowTokens ++ rest) = some (v.node, rest)
  | _, _, _, 0, _, h => by omega
  | .null, _, _, _ + 1, _, _ => rfl
  | .bool _, _, _, _ + 1, _, _ => rfl
  | .number _, _, _, _ + 1, _, _ => rfl
  | .string _, _, _, _ + 1, _, _ => rfl
  | .array items, _, _, depth + 1, rest, h => by
      rw [Value.flowTokens, List.cons_append, List.length_cons] at h
      show (readFlowItems handles true depth (Value.itemFlowTokens true items ++ rest)).map _ = _
      rw [readFlowItems_flowTokens true items (by omega)]
      rfl
  | .object members, _, _, depth + 1, rest, h => by
      rw [Value.flowTokens, List.cons_append, List.length_cons] at h
      show (readFlowPairs handles true depth (Value.memberFlowTokens true members ++ rest)).map _ =
        _
      rw [readFlowPairs_flowTokens true members (by omega)]
      rfl

theorem readFlowItems_flowTokens (first : Bool) : (items : List Value) → ∀ {depth : Nat}
    {rest : List Token}, 4 * (Value.itemFlowTokens first items ++ rest).length + 4 ≤ depth →
      readFlowItems handles first depth (Value.itemFlowTokens first items ++ rest) =
        some (Value.itemNodes items, rest)
  | _, 0, _, h => by omega
  | [], _ + 1, _, _ => rfl
  | v :: items, depth + 1, rest, h => by
      have hPos := length_flowTokens_pos v
      rw [Value.itemFlowTokens, List.append_assoc, List.append_assoc] at h ⊢
      simp only [List.length_append] at h
      obtain ⟨d, rfl⟩ : ∃ d, depth = d + 1 := ⟨depth - 1, by omega⟩
      have hNode : readNode handles false false d
          (v.flowTokens ++ (Value.itemFlowTokens false items ++ rest)) =
            some (v.node, Value.itemFlowTokens false items ++ rest) :=
        readNode_flowTokens v (by simp only [List.length_append]; omega)
      rw [readFlowItems_of_value first v hNode,
        readFlowItems_flowTokens false items (by simp only [List.length_append]; omega)]
      rfl

theorem readFlowPairs_flowTokens (first : Bool) : (members : List (String × Value)) →
    ∀ {depth : Nat} {rest : List Token},
      4 * (Value.memberFlowTokens first members ++ rest).length + 4 ≤ depth →
      readFlowPairs handles first depth (Value.memberFlowTokens first members ++ rest) =
        some (Value.memberNodes members, rest)
  | _, 0, _, h => by omega
  | [], _ + 1, _, _ => rfl
  | (name, v) :: members, depth + 1, rest, h => by
      have hTokens : Value.memberFlowTokens first ((name, v) :: members) ++ rest =
          Value.flowSeparator first ++ .key :: .scalar .doubleQuoted name.toList :: .value ::
            (v.flowTokens ++ (Value.memberFlowTokens false members ++ rest)) := by
        simp [Value.memberFlowTokens]
      rw [hTokens] at h ⊢
      simp only [List.length_append, List.length_cons] at h
      obtain ⟨d, rfl⟩ : ∃ d, depth = d + 3 := ⟨depth - 3, by omega⟩
      have hNode : readNode handles false false d
          (v.flowTokens ++ (Value.memberFlowTokens false members ++ rest)) =
            some (v.node, Value.memberFlowTokens false members ++ rest) :=
        readNode_flowTokens v (by simp only [List.length_append]; omega)
      rw [readFlowPairs_of_member first name.toList v hNode,
        readFlowPairs_flowTokens false members (by simp only [List.length_append]; omega)]
      rfl

end

/-! ## References -/

mutual

/-- No name is given in the node of a value. -/
theorem collect?_node : (v : Value) → ∀ a : Anchors, Anchors.collect? v.node a = some a
  | .null, _ => rfl
  | .bool _, _ => rfl
  | .number _, _ => rfl
  | .string _, _ => rfl
  | .array items, a => collectItems?_itemNodes items a
  | .object members, a => collectPairs?_memberNodes members a

theorem collectItems?_itemNodes : (items : List Value) → ∀ a : Anchors,
    Anchors.collectItems? (Value.itemNodes items) a = some a
  | [], _ => rfl
  | v :: rest, a => by
      rw [Value.itemNodes, Anchors.collectItems?, collect?_node v a]
      exact collectItems?_itemNodes rest a

theorem collectPairs?_memberNodes : (members : List (String × Value)) → ∀ a : Anchors,
    Anchors.collectPairs? (Value.memberNodes members) a = some a
  | [], _ => rfl
  | (name, v) :: rest, a => by
      have hName : Anchors.collect? (.scalar {} .doubleQuoted name.toList) a = some a := rfl
      rw [Value.memberNodes, Anchors.collectPairs?, hName, Option.bind_some, collect?_node v a]
      exact collectPairs?_memberNodes rest a

end

theorem reference?_node (v : Value) (a : Anchors) :
    v.node.reference? a = some (.node v.node) := by
  cases v <;> rfl

/-- The pairs of members stand for themselves. -/
theorem referencePairs?_memberPairs (style : Style) (members : List (String × Value))
    (a : Anchors) :
    referencePairs? (Value.memberPairs style members) a =
      some ((Value.memberPairs style members).map fun pair => (.node pair.1, .node pair.2), a) := by
  induction members with
  | nil => rfl
  | cons member rest ih =>
      obtain ⟨name, v⟩ := member
      have hKey : (Node.scalar {} style name.toList).reference? a =
        some (.node (.scalar {} style name.toList)) := rfl
      have hName : Anchors.collect? (.scalar {} style name.toList) a = some a := rfl
      rw [Value.memberPairs] at ih ⊢
      simp [referencePairs?, hKey, hName, reference?_node, collect?_node, ih]

/-- A document that is a mapping of members has no other pairs. -/
theorem mapping?_of_document {text : String} {style : Style} {members : List (String × Value)}
    (h : document? text = some (some (.mapping {} (Value.memberPairs style members)))) :
    mapping? text = some (Value.memberPairs style members) := by
  have hReferences := referencePairs?_memberPairs style members {}
  have hGive : Anchors.give {} {} (.mapping {} (Value.memberPairs style members)) = {} := rfl
  rw [mapping?, h]
  simp only [Option.bind_eq_bind, Option.bind_some, hGive, hReferences]
  rw [List.mapM_map]
  exact (List.mapM_pure (m := Option) (f := id)).trans (congrArg some (List.map_id _))

/-! ## Whole texts -/

/-- **The tokens of the compact JSON text of an object.** -/
theorem tokens?_json {members : List (String × Value)} (h : (Value.object members).IsFlow) :
    tokens? (Value.object members).json =
      some ((Value.object members).flowTokens ++ [.streamEnd]) := by
  have hChars : (Value.object members).json.toList =
      '\x7b' :: (Value.memberTokens true members ++ []).flatten := by
    rw [← Value.flatten_tokens, List.append_nil]
    rfl
  obtain ⟨hAllowed, hAllLine⟩ := fitsLine_iff.mp h.text
  have hLine : OnOneLine (Value.memberTokens true members ++ []).flatten := fun c hMem =>
    hAllLine c (by rw [hChars]; exact List.mem_cons_of_mem _ hMem)
  obtain ⟨s, hAt, hStart⟩ := Layout.exists_open hLine
  obtain ⟨t, hEnd, hRead⟩ := Layout.leads_members true members h.names s hAt
  rw [tokens?, if_pos hAllowed, hChars, hStart, hRead, hEnd.readAll?_end]
  simp [Value.flowTokens]

/-- **The text of an object is a mapping of its members.** -/
theorem mapping?_json {members : List (String × Value)} (h : (Value.object members).IsFlow) :
    mapping? (Value.object members).json = some (Value.memberPairs .doubleQuoted members) := by
  have hContent : readContent [] ((Value.object members).flowTokens ++ [.streamEnd]) =
      some ((Value.object members).node, [.streamEnd]) := readNode_flowTokens _ (by omega)
  refine mapping?_of_document ?_
  rw [document?, tokens?_json h]
  show (readContent [] ((Value.object members).flowTokens ++ [.streamEnd])).bind _ = _
  rw [hContent, Value.node, Value.memberNodes_eq]
  rfl

end Yaml

end Stencil
