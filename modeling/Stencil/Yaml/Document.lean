import Stencil.Yaml.Layout
import Stencil.Yaml.Node

/-!
# Documents

A text holds one document or none. Directives may stand in front of it, and then its start
has to be marked. A name stands for the node that it was given to last when it is referred
to, and a name has to be given before it is referred to.
-/

namespace Stencil.Yaml

/-! ## Directives -/

/-- The directives in front of a document. -/
structure Directives where
  /-- Whether the version has been given. -/
  versioned : Bool := false
  /-- What the tag handles stand for. -/
  handles : Handles := []

/-- Takes a directive in. The version may be given once and has to be 1.1 or 1.2; each handle
may be given once. -/
def Directives.add? (d : Directives) : Directive → Option Directives
  | .version major minor =>
    if d.versioned ∨ major ≠ 1 ∨ (minor ≠ 1 ∧ minor ≠ 2) then none
    else some { d with versioned := true }
  | .tag handle octets =>
    if (d.handles.lookup handle).isSome then none
    else some { d with handles := d.handles ++ [(handle, octets)] }

/-- Reads the directives in front of the start of a document, and its mark. -/
def readDirectives (d : Directives) : List Token → Option (Directives × List Token)
  | .directive directive :: rest => (d.add? directive).bind fun d => readDirectives d rest
  | .documentStart :: rest => some (d, rest)
  | _ => none

/-! ## The one document of a text -/

def readContent (handles : Handles) (tokens : List Token) : Part Node :=
  readNode (handles ++ defaultHandles) true false (4 * tokens.length + 4) tokens

/-- Reads a document whose start is marked. -/
def readMarked (tokens : List Token) : Part Node :=
  match readDirectives {} tokens with
  | none => none
  | some (d, rest) =>
    if rest.head?.any Token.endsDocument then some (.empty, rest)
    else readContent d.handles rest

/-- Whether nothing but ends of documents stand in front of the end of the text. -/
def isEnd : List Token → Bool
  | .documentEnd :: rest => isEnd rest
  | .streamEnd :: _ => true
  | _ => false

/-- The document of a text, or none if the text is empty. -/
def document? (text : String) : Option (Option Node) := do
  let tokens ← tokens? text
  match tokens with
  | .streamEnd :: _ => pure none
  | _ =>
    let marked := match tokens with
      | .directive _ :: _ => true
      | .documentStart :: _ => true
      | _ => false
    let (node, rest) ← if marked then readMarked tokens else readContent [] tokens
    if isEnd rest then pure (some node) else none

/-! ## Names of nodes -/

/-- The names given so far, each with the number of the node it stands for, and the nodes by
their numbers, the latest first. A name is given the count of different names before it, so
giving a name anew does not count, and the next new name takes the same number over. -/
structure Anchors where
  numbers : List (List Char × Nat) := []
  nodes : List (Nat × Node) := []

/-- Gives a name to a node. -/
def Anchors.give (a : Anchors) (properties : Properties) (node : Node) : Anchors :=
  match properties.anchor with
  | none => a
  | some name =>
    let number := a.numbers.length
    ⟨(name, number) :: a.numbers.filter (fun entry => entry.1 ≠ name),
      (number, node) :: a.nodes⟩

/-- The node with a number, once all names are given. -/
def Anchors.node? (a : Anchors) (number : Nat) : Option Node := a.nodes.lookup number

mutual

/-- Gives the names in a node, in the order of the text; a reference needs a name given
before it. -/
def Anchors.collect? : Node → Anchors → Option Anchors
  | .alias name, a => if (a.numbers.lookup name).isSome then some a else none
  | .scalar properties style text, a =>
    some (a.give properties (.scalar properties style text))
  | .sequence properties items, a =>
    Anchors.collectItems? items (a.give properties (.sequence properties items))
  | .mapping properties pairs, a =>
    Anchors.collectPairs? pairs (a.give properties (.mapping properties pairs))

/-- Gives the names in the items of a sequence. -/
def Anchors.collectItems? : List Node → Anchors → Option Anchors
  | [], a => some a
  | node :: rest, a => (Anchors.collect? node a).bind (Anchors.collectItems? rest)

/-- Gives the names in the pairs of a mapping. -/
def Anchors.collectPairs? : List (Node × Node) → Anchors → Option Anchors
  | [], a => some a
  | (key, value) :: rest, a =>
    ((Anchors.collect? key a).bind (Anchors.collect? value)).bind
      (Anchors.collectPairs? rest)

end

/-- A node, or the number of the node that it refers to. -/
inductive Reference
  | node (n : Node)
  | number (n : Nat)

/-- What a node is at its place in the text, where the given names have been given. -/
def Node.reference? (a : Anchors) : Node → Option Reference
  | .alias name => (a.numbers.lookup name).map .number
  | node => some (.node node)

/-- The pairs of a mapping with references in place of names, and the names given up to its
end. -/
def referencePairs? :
    List (Node × Node) → Anchors → Option (List (Reference × Reference) × Anchors)
  | [], a => some ([], a)
  | (key, value) :: rest, a => do
    let k ← key.reference? a
    let b ← Anchors.collect? key a
    let v ← value.reference? b
    let c ← Anchors.collect? value b
    let (pairs, d) ← referencePairs? rest c
    pure ((k, v) :: pairs, d)

/-- The node that a reference stands for, once all names are given. -/
def Reference.resolve? (a : Anchors) : Reference → Option Node
  | .node n => some n
  | .number n => a.node? n

/-- The mapping of a text with all references at its top resolved. An empty text and an empty
plain scalar count as the empty mapping; no other node is a mapping. -/
def mapping? (text : String) : Option (List (Node × Node)) := do
  match ← document? text with
  | none => pure []
  | some (.scalar _ .plain []) => pure []
  | some (.mapping properties pairs) =>
    let (references, anchors) ←
      referencePairs? pairs (Anchors.give {} properties (.mapping properties pairs))
    references.mapM fun (key, value) => do
      pure (← key.resolve? anchors, ← value.resolve? anchors)
  | _ => none

end Stencil.Yaml
