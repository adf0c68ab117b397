import Stencil.Yaml.Document

/-!
# The depth of readers

The readers of nodes call each other as deep as a bound allows, and where the bound is used up
nothing is read. This never happens to a document. A node, an item of a flow sequence and a pair of
a flow mapping take at least one token, and a reader that takes none passes on to one that stands
lower in a fixed order of rank four. So four calls for each token, and the rank of the first
reader, are as deep as calls can go: with any greater bound the same is read.

## Main results

* `consumes` — how many tokens the readers leave.
* `agrees` — bounds that are large enough are all the same.
* `readContent_of_le` — the bound on the depth of a document is large enough.
-/

namespace Stencil.Yaml

variable {handles : Handles} {block indentless indented first : Bool} {ends : Token → Bool}
  {depth : Nat} {tokens rest : List Token}

/-! ## Tokens that are taken -/

/-- Properties that are there have been taken from the tokens. -/
theorem readProperties_cases {properties : Properties}
    (h : readProperties handles tokens = some (properties, rest)) :
    properties = {} ∧ rest = tokens ∨ rest.length < tokens.length := by
  unfold readProperties at h
  split at h
  · obtain ⟨octets, -, hPart⟩ := Option.map_eq_some_iff.mp h
    obtain ⟨-, rfl⟩ := Prod.mk.inj hPart
    right
    simp only [List.length_cons]
    omega
  · obtain ⟨-, rfl⟩ := Prod.mk.inj (Option.some.inj h)
    exact .inr (Nat.lt_succ_self _)
  · obtain ⟨octets, -, hPart⟩ := Option.map_eq_some_iff.mp h
    obtain ⟨-, rfl⟩ := Prod.mk.inj hPart
    right
    simp only [List.length_cons]
    omega
  · obtain ⟨octets, -, hPart⟩ := Option.map_eq_some_iff.mp h
    obtain ⟨-, rfl⟩ := Prod.mk.inj hPart
    exact .inr (Nat.lt_succ_self _)
  · obtain ⟨rfl, rfl⟩ := Prod.mk.inj (Option.some.inj h)
    exact .inl ⟨rfl, rfl⟩

theorem length_readProperties_le {properties : Properties}
    (h : readProperties handles tokens = some (properties, rest)) :
    rest.length ≤ tokens.length := by
  rcases readProperties_cases h with ⟨-, rfl⟩ | hLt
  · exact Nat.le_refl _
  · exact Nat.le_of_lt hLt

/-- An empty node takes its properties. -/
theorem length_node?_lt {properties : Properties} {r : Node × List Token}
    (h : readProperties handles tokens = some (properties, rest))
    (hNode : properties.node? rest = some r) : r.2.length < tokens.length := by
  unfold Properties.node? at hNode
  split at hNode
  · rename_i hSome
    obtain rfl := Option.some.inj hNode
    rcases readProperties_cases h with ⟨rfl, -⟩ | hLt
    · cases hSome
    · exact hLt
  · cases hNode

/-- A key that is missing takes the token in its place with it. -/
theorem length_afterMissingKey?_le (h : afterMissingKey? tokens = some rest) :
    rest.length ≤ tokens.length := by
  unfold afterMissingKey? at h
  split at h
  · obtain rfl := Option.some.inj h
    exact Nat.le_succ _
  · obtain rfl := Option.some.inj h
    exact Nat.le_succ _
  · obtain rfl := Option.some.inj h
    exact Nat.le_succ _
  · cases h

/-- In front of an item or a pair that is not the first one a comma is taken. -/
theorem length_afterComma?_le
    (h : (if first then some tokens else afterComma? tokens) = some rest) :
    rest.length ≤ tokens.length := by
  split at h
  · obtain rfl := Option.some.inj h
    exact Nat.le_refl _
  · unfold afterComma? at h
    split at h
    · obtain rfl := Option.some.inj h
      exact Nat.le_succ _
    · cases h

/-- How many tokens the readers leave when they are allowed a depth. -/
structure Consumes (handles : Handles) (depth : Nat) : Prop where
  node {block indentless : Bool} {tokens : List Token} {r : Node × List Token}
    (h : readNode handles block indentless depth tokens = some r) : r.2.length < tokens.length
  optional {block indentless : Bool} {ends : Token → Bool} {tokens : List Token}
    {r : Node × List Token} (h : readOptional handles block indentless ends depth tokens = some r) :
    r.2.length ≤ tokens.length
  items {indented : Bool} {tokens : List Token} {r : List Node × List Token}
    (h : readItems handles indented depth tokens = some r) : r.2.length ≤ tokens.length
  item {indented : Bool} {rest : List Token} {r : List Node × List Token}
    (h : readItems handles indented depth (.item :: rest) = some r) : r.2.length ≤ rest.length
  value {block : Bool} {ends : Token → Bool} {tokens : List Token} {r : Node × List Token}
    (h : readValue handles block ends depth tokens = some r) : r.2.length ≤ tokens.length
  pairs {tokens : List Token} {r : List (Node × Node) × List Token}
    (h : readPairs handles depth tokens = some r) : r.2.length ≤ tokens.length
  flowItem {tokens : List Token} {r : Node × List Token}
    (h : readFlowItem handles depth tokens = some r) : r.2.length < tokens.length
  flowItems {first : Bool} {tokens : List Token} {r : List Node × List Token}
    (h : readFlowItems handles first depth tokens = some r) : r.2.length ≤ tokens.length
  flowPair {tokens : List Token} {r : (Node × Node) × List Token}
    (h : readFlowPair handles depth tokens = some r) : r.2.length < tokens.length
  flowPairs {first : Bool} {tokens : List Token} {r : List (Node × Node) × List Token}
    (h : readFlowPairs handles first depth tokens = some r) : r.2.length ≤ tokens.length

namespace Consumes

variable (ih : Consumes handles depth)
include ih

theorem node_succ {r : Node × List Token}
    (h : readNode handles block indentless (depth + 1) tokens = some r) :
    r.2.length < tokens.length := by
  by_cases hAlias : ∃ name rest, tokens = .alias name :: rest
  · obtain ⟨name, rest, rfl⟩ := hAlias
    obtain rfl := Option.some.inj h
    exact Nat.lt_succ_self _
  · rw [readNode] at h
    · split at h
      · cases h
      · rename_i properties rest hProperties
        have hLe := length_readProperties_le hProperties
        split at h
        · obtain rfl := Option.some.inj h
          exact hLe
        · obtain ⟨r, hRead, rfl⟩ := Option.map_eq_some_iff.mp h
          exact Nat.lt_of_le_of_lt (ih.flowItems hRead) hLe
        · obtain ⟨r, hRead, rfl⟩ := Option.map_eq_some_iff.mp h
          exact Nat.lt_of_le_of_lt (ih.flowPairs hRead) hLe
        · split at h
          · obtain ⟨r, hRead, rfl⟩ := Option.map_eq_some_iff.mp h
            exact Nat.lt_of_le_of_lt (ih.items hRead) hLe
          · exact length_node?_lt hProperties h
        · split at h
          · obtain ⟨r, hRead, rfl⟩ := Option.map_eq_some_iff.mp h
            exact Nat.lt_of_le_of_lt (ih.pairs hRead) hLe
          · exact length_node?_lt hProperties h
        · split at h
          · obtain ⟨r, hRead, rfl⟩ := Option.map_eq_some_iff.mp h
            exact Nat.lt_of_le_of_lt (ih.item hRead) hLe
          · exact length_node?_lt hProperties h
        · exact length_node?_lt hProperties h
    · exact fun name rest hTokens => hAlias ⟨name, rest, hTokens⟩

theorem optional_succ {r : Node × List Token}
    (h : readOptional handles block indentless ends (depth + 1) tokens = some r) :
    r.2.length ≤ tokens.length := by
  rw [readOptional] at h
  split at h
  · obtain rfl := Option.some.inj h
    exact Nat.le_refl _
  · exact Nat.le_of_lt (ih.node h)

theorem item_succ {r : List Node × List Token}
    (h : readItems handles indented (depth + 1) (.item :: rest) = some r) :
    r.2.length ≤ rest.length := by
  rw [readItems] at h
  split at h
  · cases h
  · rename_i node after hNode
    obtain ⟨r, hRead, rfl⟩ := Option.map_eq_some_iff.mp h
    have hBehind := ih.items hRead
    exact Nat.le_trans hBehind (ih.optional hNode)

theorem items_succ {r : List Node × List Token}
    (h : readItems handles indented (depth + 1) tokens = some r) :
    r.2.length ≤ tokens.length := by
  cases tokens with
  | nil =>
      rw [readItems] at h
      · split at h
        · exact Option.some.inj h ▸ Nat.le_refl _
        · cases h
      · exact fun rest => nofun
      · exact fun rest => nofun
  | cons token rest =>
      cases token with
      | item => exact Nat.le_succ_of_le (ih.item_succ h)
      | blockEnd =>
          simp only [readItems] at h
          split at h
          · exact Option.some.inj h ▸ Nat.le_refl _
          · exact Option.some.inj h ▸ Nat.le_succ _
      | _ =>
          simp only [readItems] at h
          split at h
          · exact Option.some.inj h ▸ Nat.le_refl _
          · cases h

theorem value_succ {r : Node × List Token}
    (h : readValue handles block ends (depth + 1) tokens = some r) :
    r.2.length ≤ tokens.length := by
  by_cases hValue : ∃ rest, tokens = .value :: rest
  · obtain ⟨rest, rfl⟩ := hValue
    rw [readValue] at h
    exact Nat.le_succ_of_le (ih.optional h)
  · rw [readValue] at h
    · obtain rfl := Option.some.inj h
      exact Nat.le_refl _
    · exact fun rest hTokens => hValue ⟨rest, hTokens⟩

theorem pairs_succ {r : List (Node × Node) × List Token}
    (h : readPairs handles (depth + 1) tokens = some r) : r.2.length ≤ tokens.length := by
  cases tokens with
  | nil => cases h
  | cons token rest =>
      cases token with
      | blockEnd =>
          obtain rfl := Option.some.inj h
          exact Nat.le_succ _
      | key =>
          rw [readPairs] at h
          split at h
          · cases h
          · rename_i key behindKey hKey
            split at h
            · cases h
            · rename_i value behindValue hValue
              obtain ⟨r, hRead, rfl⟩ := Option.map_eq_some_iff.mp h
              have hBehind := ih.pairs hRead
              exact Nat.le_succ_of_le (Nat.le_trans hBehind
                (Nat.le_trans (ih.value hValue) (ih.optional hKey)))
      | _ => cases h

theorem flowItem_succ {r : Node × List Token}
    (h : readFlowItem handles (depth + 1) tokens = some r) : r.2.length < tokens.length := by
  by_cases hKey : ∃ rest, tokens = .key :: rest
  · obtain ⟨rest, rfl⟩ := hKey
    rw [readFlowItem] at h
    split at h
    · cases h
    · rename_i key behindKey hRead
      have hLe : behindKey.length ≤ rest.length := by
        split at hRead
        · rename_i after hMissing
          obtain ⟨-, rfl⟩ := Prod.mk.inj (Option.some.inj hRead)
          exact length_afterMissingKey?_le hMissing
        · exact Nat.le_of_lt (ih.node hRead)
      obtain ⟨r, hValue, rfl⟩ := Option.map_eq_some_iff.mp h
      have hBehind := ih.value hValue
      exact Nat.lt_succ_of_le (Nat.le_trans hBehind hLe)
  · rw [readFlowItem] at h
    · exact ih.node h
    · exact fun rest hTokens => hKey ⟨rest, hTokens⟩

theorem flowPair_succ {r : (Node × Node) × List Token}
    (h : readFlowPair handles (depth + 1) tokens = some r) : r.2.length < tokens.length := by
  by_cases hKey : ∃ rest, tokens = .key :: rest
  · obtain ⟨rest, rfl⟩ := hKey
    rw [readFlowPair] at h
    split at h
    · cases h
    · rename_i key behindKey hRead
      obtain ⟨r, hValue, rfl⟩ := Option.map_eq_some_iff.mp h
      have hBehind := ih.value hValue
      exact Nat.lt_succ_of_le (Nat.le_trans hBehind (ih.optional hRead))
  · rw [readFlowPair] at h
    · obtain ⟨r, hNode, rfl⟩ := Option.map_eq_some_iff.mp h
      have hBehind := ih.node hNode
      exact hBehind
    · exact fun rest hTokens => hKey ⟨rest, hTokens⟩

theorem flowItems_succ {r : List Node × List Token}
    (h : readFlowItems handles first (depth + 1) tokens = some r) :
    r.2.length ≤ tokens.length := by
  by_cases hEnd : ∃ rest, tokens = .flowSequenceEnd :: rest
  · obtain ⟨rest, rfl⟩ := hEnd
    obtain rfl := Option.some.inj h
    exact Nat.le_succ _
  · rw [readFlowItems] at h
    · split at h
      · cases h
      · rename_i rest hComma
        obtain rfl := Option.some.inj h
        have hLe := length_afterComma?_le hComma
        exact Nat.le_of_lt hLe
      · rename_i after hNoEnd hComma
        have hLe := length_afterComma?_le hComma
        split at h
        · cases h
        · rename_i item rest hItem
          obtain ⟨r, hRead, rfl⟩ := Option.map_eq_some_iff.mp h
          have hBehind := ih.flowItems hRead
          exact Nat.le_trans hBehind (Nat.le_trans (Nat.le_of_lt (ih.flowItem hItem)) hLe)
    · exact fun rest hTokens => hEnd ⟨rest, hTokens⟩

theorem flowPairs_succ {r : List (Node × Node) × List Token}
    (h : readFlowPairs handles first (depth + 1) tokens = some r) :
    r.2.length ≤ tokens.length := by
  by_cases hEnd : ∃ rest, tokens = .flowMappingEnd :: rest
  · obtain ⟨rest, rfl⟩ := hEnd
    obtain rfl := Option.some.inj h
    exact Nat.le_succ _
  · rw [readFlowPairs] at h
    · split at h
      · cases h
      · rename_i rest hComma
        obtain rfl := Option.some.inj h
        have hLe := length_afterComma?_le hComma
        exact Nat.le_of_lt hLe
      · rename_i after hNoEnd hComma
        have hLe := length_afterComma?_le hComma
        split at h
        · cases h
        · rename_i pair rest hPair
          obtain ⟨r, hRead, rfl⟩ := Option.map_eq_some_iff.mp h
          have hBehind := ih.flowPairs hRead
          exact Nat.le_trans hBehind (Nat.le_trans (Nat.le_of_lt (ih.flowPair hPair)) hLe)
    · exact fun rest hTokens => hEnd ⟨rest, hTokens⟩

end Consumes

/-- **The readers leave no more tokens than there were**, and a node, an item in brackets and a
pair in brackets leave less. -/
theorem consumes (handles : Handles) (depth : Nat) : Consumes handles depth := by
  induction depth with
  | zero => constructor <;> intros <;> rename_i h <;> cases h
  | succ depth ih =>
      exact
        { node := ih.node_succ
          optional := ih.optional_succ
          items := ih.items_succ
          item := ih.item_succ
          value := ih.value_succ
          pairs := ih.pairs_succ
          flowItem := ih.flowItem_succ
          flowItems := ih.flowItems_succ
          flowPair := ih.flowPair_succ
          flowPairs := ih.flowPairs_succ }

/-! ## Bounds that are large enough -/

/-- Two bounds that are alike for all tokens for which the first one is large enough. -/
structure Agrees (handles : Handles) (d e : Nat) : Prop where
  node {block indentless : Bool} {tokens : List Token} (h : 4 * tokens.length + 2 ≤ d) :
    readNode handles block indentless d tokens = readNode handles block indentless e tokens
  optional {block indentless : Bool} {ends : Token → Bool} {tokens : List Token}
    (h : 4 * tokens.length + 3 ≤ d) :
    readOptional handles block indentless ends d tokens =
      readOptional handles block indentless ends e tokens
  items {indented : Bool} {tokens : List Token} (h : 4 * tokens.length + 1 ≤ d) :
    readItems handles indented d tokens = readItems handles indented e tokens
  value {block : Bool} {ends : Token → Bool} {tokens : List Token}
    (h : 4 * tokens.length + 1 ≤ d) :
    readValue handles block ends d tokens = readValue handles block ends e tokens
  pairs {tokens : List Token} (h : 4 * tokens.length + 1 ≤ d) :
    readPairs handles d tokens = readPairs handles e tokens
  flowItem {tokens : List Token} (h : 4 * tokens.length + 3 ≤ d) :
    readFlowItem handles d tokens = readFlowItem handles e tokens
  flowItems {first : Bool} {tokens : List Token} (h : 4 * tokens.length + 4 ≤ d) :
    readFlowItems handles first d tokens = readFlowItems handles first e tokens
  flowPair {tokens : List Token} (h : 4 * tokens.length + 3 ≤ d) :
    readFlowPair handles d tokens = readFlowPair handles e tokens
  flowPairs {first : Bool} {tokens : List Token} (h : 4 * tokens.length + 4 ≤ d) :
    readFlowPairs handles first d tokens = readFlowPairs handles first e tokens

namespace Agrees

variable {d e : Nat} (ih : Agrees handles d e)
include ih

theorem node_succ (h : 4 * tokens.length + 2 ≤ d + 1) :
    readNode handles block indentless (d + 1) tokens =
      readNode handles block indentless (e + 1) tokens := by
  by_cases hAlias : ∃ name rest, tokens = .alias name :: rest
  · obtain ⟨name, rest, rfl⟩ := hAlias
    rfl
  · rw [readNode, readNode]
    · cases hProperties : readProperties handles tokens with
      | none => rfl
      | some p =>
          obtain ⟨properties, rest⟩ := p
          have hLe := length_readProperties_le hProperties
          cases rest with
          | nil => rfl
          | cons token after =>
              have hToken : 4 * (token :: after).length + 1 ≤ d := by omega
              rw [List.length_cons] at hLe
              cases token with
              | flowSequence => simp only [ih.flowItems (show 4 * after.length + 4 ≤ d by omega)]
              | flowMapping => simp only [ih.flowPairs (show 4 * after.length + 4 ≤ d by omega)]
              | blockSequence => simp only [ih.items (show 4 * after.length + 1 ≤ d by omega)]
              | blockMapping => simp only [ih.pairs (show 4 * after.length + 1 ≤ d by omega)]
              | item => simp only [ih.items hToken]
              | _ => rfl
    · exact fun name rest hTokens => hAlias ⟨name, rest, hTokens⟩
    · exact fun name rest hTokens => hAlias ⟨name, rest, hTokens⟩

theorem optional_succ (h : 4 * tokens.length + 3 ≤ d + 1) :
    readOptional handles block indentless ends (d + 1) tokens =
      readOptional handles block indentless ends (e + 1) tokens := by
  rw [readOptional, readOptional, ih.node (by omega)]

theorem items_succ (h : 4 * tokens.length + 1 ≤ d + 1) :
    readItems handles indented (d + 1) tokens = readItems handles indented (e + 1) tokens := by
  cases tokens with
  | nil => rfl
  | cons token rest =>
      rw [List.length_cons] at h
      cases token with
      | item =>
          rw [readItems, readItems, ih.optional (by omega)]
          split
          · rfl
          · rename_i node behind hNode
            have hLe : behind.length ≤ rest.length := (consumes handles e).optional hNode
            rw [ih.items (by omega)]
      | _ => rfl

theorem value_succ (h : 4 * tokens.length + 1 ≤ d + 1) :
    readValue handles block ends (d + 1) tokens = readValue handles block ends (e + 1) tokens := by
  cases tokens with
  | nil => rfl
  | cons token rest =>
      rw [List.length_cons] at h
      cases token with
      | value => exact ih.optional (by omega)
      | _ => rfl

theorem pairs_succ (h : 4 * tokens.length + 1 ≤ d + 1) :
    readPairs handles (d + 1) tokens = readPairs handles (e + 1) tokens := by
  cases tokens with
  | nil => rfl
  | cons token rest =>
      rw [List.length_cons] at h
      cases token with
      | key =>
          rw [readPairs, readPairs, ih.optional (by omega)]
          split
          · rfl
          · rename_i key behindKey hKey
            have hLeKey : behindKey.length ≤ rest.length := (consumes handles e).optional hKey
            rw [ih.value (by omega)]
            split
            · rfl
            · rename_i value behindValue hValue
              have hLe : behindValue.length ≤ behindKey.length :=
                (consumes handles e).value hValue
              rw [ih.pairs (by omega)]
      | _ => rfl

theorem flowItem_succ (h : 4 * tokens.length + 3 ≤ d + 1) :
    readFlowItem handles (d + 1) tokens = readFlowItem handles (e + 1) tokens := by
  by_cases hKey : ∃ rest, tokens = .key :: rest
  · obtain ⟨rest, rfl⟩ := hKey
    rw [List.length_cons] at h
    rw [readFlowItem, readFlowItem, ih.node (by omega)]
    split
    · rfl
    · rename_i key behindKey hRead
      have hLe : behindKey.length ≤ rest.length := by
        split at hRead
        · rename_i after hMissing
          obtain ⟨-, rfl⟩ := Prod.mk.inj (Option.some.inj hRead)
          exact length_afterMissingKey?_le hMissing
        · exact Nat.le_of_lt ((consumes handles e).node hRead)
      rw [ih.value (by omega)]
  · rw [readFlowItem, readFlowItem]
    · exact ih.node (by omega)
    · exact fun rest hTokens => hKey ⟨rest, hTokens⟩
    · exact fun rest hTokens => hKey ⟨rest, hTokens⟩

theorem flowPair_succ (h : 4 * tokens.length + 3 ≤ d + 1) :
    readFlowPair handles (d + 1) tokens = readFlowPair handles (e + 1) tokens := by
  by_cases hKey : ∃ rest, tokens = .key :: rest
  · obtain ⟨rest, rfl⟩ := hKey
    rw [List.length_cons] at h
    rw [readFlowPair, readFlowPair, ih.optional (by omega)]
    split
    · rfl
    · rename_i key behindKey hRead
      have hLe : behindKey.length ≤ rest.length := (consumes handles e).optional hRead
      rw [ih.value (by omega)]
  · rw [readFlowPair, readFlowPair]
    · rw [ih.node (by omega)]
    · exact fun rest hTokens => hKey ⟨rest, hTokens⟩
    · exact fun rest hTokens => hKey ⟨rest, hTokens⟩

theorem flowItems_succ (h : 4 * tokens.length + 4 ≤ d + 1) :
    readFlowItems handles first (d + 1) tokens = readFlowItems handles first (e + 1) tokens := by
  by_cases hEnd : ∃ rest, tokens = .flowSequenceEnd :: rest
  · obtain ⟨rest, rfl⟩ := hEnd
    rfl
  · rw [readFlowItems, readFlowItems]
    · split
      · rfl
      · rfl
      · rename_i after hNoEnd hComma
        have hLe := length_afterComma?_le hComma
        rw [ih.flowItem (by omega)]
        split
        · rfl
        · rename_i item rest hItem
          have hLt : rest.length < after.length := (consumes handles e).flowItem hItem
          rw [ih.flowItems (by omega)]
    · exact fun rest hTokens => hEnd ⟨rest, hTokens⟩
    · exact fun rest hTokens => hEnd ⟨rest, hTokens⟩

theorem flowPairs_succ (h : 4 * tokens.length + 4 ≤ d + 1) :
    readFlowPairs handles first (d + 1) tokens = readFlowPairs handles first (e + 1) tokens := by
  by_cases hEnd : ∃ rest, tokens = .flowMappingEnd :: rest
  · obtain ⟨rest, rfl⟩ := hEnd
    rfl
  · rw [readFlowPairs, readFlowPairs]
    · split
      · rfl
      · rfl
      · rename_i after hNoEnd hComma
        have hLe := length_afterComma?_le hComma
        rw [ih.flowPair (by omega)]
        split
        · rfl
        · rename_i pair rest hPair
          have hLt : rest.length < after.length := (consumes handles e).flowPair hPair
          rw [ih.flowPairs (by omega)]
    · exact fun rest hTokens => hEnd ⟨rest, hTokens⟩
    · exact fun rest hTokens => hEnd ⟨rest, hTokens⟩

end Agrees

/-- **Bounds that are large enough are all the same**: four for each token, and the rank of the
reader. -/
theorem agrees (handles : Handles) {d e : Nat} (hLe : d ≤ e) : Agrees handles d e := by
  induction d generalizing e with
  | zero => constructor <;> intros <;> omega
  | succ d ih =>
      cases e with
      | zero => omega
      | succ e =>
          have ih := ih (Nat.le_of_succ_le_succ hLe)
          exact
            { node := ih.node_succ
              optional := ih.optional_succ
              items := ih.items_succ
              value := ih.value_succ
              pairs := ih.pairs_succ
              flowItem := ih.flowItem_succ
              flowItems := ih.flowItems_succ
              flowPair := ih.flowPair_succ
              flowPairs := ih.flowPairs_succ }

/-- **The bound on the depth of a document is never used up**: with a greater one the same is
read, and the same is refused. -/
theorem readContent_of_le (handles : Handles) {tokens : List Token} {depth : Nat}
    (h : 4 * tokens.length + 4 ≤ depth) :
    readNode (handles ++ defaultHandles) true false depth tokens = readContent handles tokens :=
  ((agrees _ h).node (by omega)).symm

end Stencil.Yaml
