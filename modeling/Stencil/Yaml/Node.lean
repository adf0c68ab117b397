import Stencil.Yaml.Token

/-!
# Nodes

The tokens of a text form at most one document, and a document is one node: a scalar, a
sequence, a mapping, or a reference to a node with a name. A node that is missing where one
is expected is an empty plain scalar.

The functions below each read one part from the front of a list of tokens and give the tokens
behind it. Each call reads a token or is the last of a bounded number of calls that read none,
so a bound on the depth of calls in the number of tokens is enough.
-/

namespace Stencil.Yaml

/-- What stands in front of a node. -/
structure Properties where
  /-- The name of the node. -/
  anchor : Option (List Char) := none
  /-- The octets of its tag. -/
  tag : Option (List Nat) := none

/-- A node of a document. -/
inductive Node
  /-- A reference to the node with the given name. -/
  | alias (name : List Char)
  | scalar (properties : Properties) (style : Style) (text : List Char)
  | sequence (properties : Properties) (items : List Node)
  | mapping (properties : Properties) (pairs : List (Node × Node))

/-- The node that stands in where none is written. -/
def Node.empty : Node := .scalar {} .plain []

/-- What the tag handles of a document stand for, the first one of each name counting. -/
abbrev Handles := List (List Char × List Nat)

/-- The handles that every document has. -/
def defaultHandles : Handles :=
  [("!".toList, "!".toList.map Char.toNat),
    ("!!".toList, "tag:yaml.org,2002:".toList.map Char.toNat)]

/-- The octets of a tag, if its handle is known. -/
def resolveTag? (handles : Handles) (t : TagName) : Option (List Nat) :=
  if t.handle = [] then some t.suffix
  else (handles.lookup t.handle).map (· ++ t.suffix)

/-- The properties in front of a node: a name and a tag, in either order. -/
def readProperties (handles : Handles) : List Token → Option (Properties × List Token)
  | .anchor name :: .tag t :: rest =>
    (resolveTag? handles t).map fun octets => (⟨some name, some octets⟩, rest)
  | .anchor name :: rest => some (⟨some name, none⟩, rest)
  | .tag t :: .anchor name :: rest =>
    (resolveTag? handles t).map fun octets => (⟨some name, some octets⟩, rest)
  | .tag t :: rest => (resolveTag? handles t).map fun octets => (⟨none, some octets⟩, rest)
  | rest => some ({}, rest)

namespace Token

/-- Whether a block key or value is missing in front of this token. -/
def endsBlockNode : Token → Bool
  | .key => true
  | .value => true
  | .blockEnd => true
  | _ => false

/-- Whether an item of a sequence is missing in front of this token; the sequence is indented
of its own if `indented` is set. -/
def endsItem (indented : Bool) : Token → Bool
  | .item => true
  | .blockEnd => true
  | .key => !indented
  | .value => !indented
  | _ => false

/-- Whether the value of a single pair in a flow sequence is missing in front of this
token. -/
def endsFlowItem : Token → Bool
  | .comma => true
  | .flowSequenceEnd => true
  | _ => false

/-- Whether the value of a pair in a flow mapping is missing in front of this token. -/
def endsFlowPair : Token → Bool
  | .comma => true
  | .flowMappingEnd => true
  | _ => false

/-- Whether the key of a pair in a flow mapping is missing in front of this token. -/
def endsFlowKey : Token → Bool
  | .value => true
  | t => t.endsFlowPair

/-- Whether the content of a document is missing in front of this token. -/
def endsDocument : Token → Bool
  | .directive _ => true
  | .documentStart => true
  | .documentEnd => true
  | .streamEnd => true
  | _ => false

end Token

/-- What a reader of a part gives: the part and the tokens behind it. -/
abbrev Part (α : Type) := Option (α × List Token)

/-- The empty node with the given properties; without any it is not there at all. -/
def Properties.node? (properties : Properties) (rest : List Token) : Part Node :=
  if properties.anchor.isSome || properties.tag.isSome then
    some (.scalar properties .plain [], rest)
  else none

/-- The tokens behind the comma ahead. -/
def afterComma? : List Token → Option (List Token)
  | .comma :: rest => some rest
  | _ => none

/-- The tokens behind the one that stands where the key of a single pair is missing. -/
def afterMissingKey? : List Token → Option (List Token)
  | .value :: rest => some rest
  | .comma :: rest => some rest
  | .flowSequenceEnd :: rest => some rest
  | _ => none

mutual

/-- Reads a node, which may be a block collection if `block` is set, and a sequence without
an indentation of its own if `indentless` is set. -/
def readNode (handles : Handles) (block indentless : Bool) :
    (depth : Nat) → List Token → Part Node
  | 0, _ => none
  | _ + 1, .alias name :: rest => some (.alias name, rest)
  | depth + 1, tokens =>
    match readProperties handles tokens with
    | none => none
    | some (properties, rest) =>
      match rest with
      | .scalar style text :: rest => some (.scalar properties style text, rest)
      | .flowSequence :: rest =>
        (readFlowItems handles true depth rest).map fun r =>
          (.sequence properties r.1, r.2)
      | .flowMapping :: rest =>
        (readFlowPairs handles true depth rest).map fun r => (.mapping properties r.1, r.2)
      | .blockSequence :: after =>
        if block then
          (readItems handles true depth after).map fun r => (.sequence properties r.1, r.2)
        else properties.node? rest
      | .blockMapping :: after =>
        if block then
          (readPairs handles depth after).map fun r => (.mapping properties r.1, r.2)
        else properties.node? rest
      | .item :: _ =>
        if indentless then
          (readItems handles false depth rest).map fun r => (.sequence properties r.1, r.2)
        else properties.node? rest
      | _ => properties.node? rest

/-- Reads a node, or an empty one if `ends` holds of the next token. -/
def readOptional (handles : Handles) (block indentless : Bool) (ends : Token → Bool) :
    (depth : Nat) → List Token → Part Node
  | 0, _ => none
  | depth + 1, tokens =>
    if tokens.head?.any ends then some (.empty, tokens)
    else readNode handles block indentless depth tokens

/-- Reads the items of a block sequence, which is indented of its own if `indented` is set
and then has an end token. -/
def readItems (handles : Handles) (indented : Bool) :
    (depth : Nat) → List Token → Part (List Node)
  | 0, _ => none
  | depth + 1, .item :: rest =>
    match readOptional handles true false (Token.endsItem indented) depth rest with
    | none => none
    | some (node, rest) =>
      (readItems handles indented depth rest).map fun r => (node :: r.1, r.2)
  | _ + 1, tokens =>
    if !indented then some ([], tokens)
    else
      match tokens with
      | .blockEnd :: rest => some ([], rest)
      | _ => none

/-- Reads the value behind a key, or an empty one if there is no colon. -/
def readValue (handles : Handles) (block : Bool) (ends : Token → Bool) :
    (depth : Nat) → List Token → Part Node
  | 0, _ => none
  | depth + 1, .value :: rest => readOptional handles block block ends depth rest
  | _ + 1, tokens => some (.empty, tokens)

/-- Reads the pairs of a block mapping up to its end token. -/
def readPairs (handles : Handles) : (depth : Nat) → List Token → Part (List (Node × Node))
  | 0, _ => none
  | _ + 1, .blockEnd :: rest => some ([], rest)
  | depth + 1, .key :: rest =>
    match readOptional handles true true Token.endsBlockNode depth rest with
    | none => none
    | some (key, rest) =>
      match readValue handles true Token.endsBlockNode depth rest with
      | none => none
      | some (value, rest) =>
        (readPairs handles depth rest).map fun r => ((key, value) :: r.1, r.2)
  | _ + 1, _ => none

/-- Reads an item of a flow sequence; a key starts a mapping of a single pair. A key that is
missing takes the token in its place with it. -/
def readFlowItem (handles : Handles) : (depth : Nat) → List Token → Part Node
  | 0, _ => none
  | depth + 1, .key :: rest =>
    let key? := match afterMissingKey? rest with
      | some after => some (Node.empty, after)
      | none => readNode handles false false depth rest
    match key? with
    | none => none
    | some (key, rest) =>
      (readValue handles false Token.endsFlowItem depth rest).map fun r =>
        (.mapping {} [(key, r.1)], r.2)
  | depth + 1, tokens => readNode handles false false depth tokens

/-- Reads the items of a flow sequence up to its closing bracket. -/
def readFlowItems (handles : Handles) (first : Bool) :
    (depth : Nat) → List Token → Part (List Node)
  | 0, _ => none
  | _ + 1, .flowSequenceEnd :: rest => some ([], rest)
  | depth + 1, tokens =>
    match if first then some tokens else afterComma? tokens with
    | none => none
    | some (.flowSequenceEnd :: rest) => some ([], rest)
    | some tokens =>
      match readFlowItem handles depth tokens with
      | none => none
      | some (item, rest) =>
        (readFlowItems handles false depth rest).map fun r => (item :: r.1, r.2)

/-- Reads a pair of a flow mapping; a node without a key token in front of it has an empty
value. -/
def readFlowPair (handles : Handles) : (depth : Nat) → List Token → Part (Node × Node)
  | 0, _ => none
  | depth + 1, .key :: rest =>
    match readOptional handles false false Token.endsFlowKey depth rest with
    | none => none
    | some (key, rest) =>
      (readValue handles false Token.endsFlowPair depth rest).map fun r => ((key, r.1), r.2)
  | depth + 1, tokens =>
    (readNode handles false false depth tokens).map fun r => ((r.1, .empty), r.2)

/-- Reads the pairs of a flow mapping up to its closing brace. -/
def readFlowPairs (handles : Handles) (first : Bool) :
    (depth : Nat) → List Token → Part (List (Node × Node))
  | 0, _ => none
  | _ + 1, .flowMappingEnd :: rest => some ([], rest)
  | depth + 1, tokens =>
    match if first then some tokens else afterComma? tokens with
    | none => none
    | some (.flowMappingEnd :: rest) => some ([], rest)
    | some tokens =>
      match readFlowPair handles depth tokens with
      | none => none
      | some (pair, rest) =>
        (readFlowPairs handles false depth rest).map fun r => (pair :: r.1, r.2)

end

end Stencil.Yaml
