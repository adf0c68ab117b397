import Stencil.Yaml.Scalar.Block
import Stencil.Yaml.Scalar.Plain
import Stencil.Yaml.Scalar.Quoted
import Stencil.Yaml.Token

/-!
# From text to tokens

Reading tokens needs a state, for two reasons. Indentation opens and closes block
collections, so the columns of the open ones are kept. And whether a node is a key shows only
at the colon behind it, so for each level of flow brackets the last node that may be a key is
kept; if its colon comes, the key token is put in front of it. Such a node must stand on one
line with its colon, which comes at most 1024 octets after its start.
-/

namespace Stencil.Yaml

/-- A node that may turn out to be a key. -/
structure KeyCandidate where
  /-- The number of tokens in front of the node. -/
  tokens : Nat
  /-- Where the node starts. -/
  offset : Nat
  line : Nat
  column : Nat
  /-- Whether nothing but a key can stand there. -/
  required : Bool

/-- The state of reading tokens. -/
structure Layout where
  cursor : Cursor
  /-- The tokens read, the last one first. -/
  tokens : List Token
  /-- The column of the innermost block collection; `-1` outside of all. -/
  indent : Int
  /-- The columns of the block collections around it, innermost first. -/
  outer : List Int
  /-- The candidate for a key outside of flow brackets or inside the innermost ones. -/
  candidate : Option KeyCandidate
  /-- The candidates around the flow brackets that are open, innermost first. -/
  around : List (Option KeyCandidate)
  /-- Whether a node that starts here may be a key. -/
  keyAllowed : Bool

namespace Layout

def start (text : List Char) : Layout := ⟨Cursor.ofList text, [], -1, [], none, [], true⟩

/-- Whether a flow bracket is open. -/
def inFlow (s : Layout) : Bool := !s.around.isEmpty

/-- Adds a token that has been read up to `after`, and tells whether a key may follow. -/
def emit (s : Layout) (token : Token) (after : Cursor) (keyAllowed : Bool) : Layout :=
  { s with cursor := after, tokens := token :: s.tokens, keyAllowed := keyAllowed }

/-- Puts a token behind the first `position` tokens. -/
def insertAt (s : Layout) (position : Nat) (token : Token) : Layout :=
  let later := s.tokens.length - position
  { s with tokens := s.tokens.take later ++ token :: s.tokens.drop later }

/-! ## Spacing -/

/-- The place behind the blanks and the comment that are ahead on the line, and behind a byte
order mark at its start. Tabs do not count as blanks where a block collection may start. -/
def behindBlanks (s : Layout) : Cursor :=
  let tabs := s.inFlow || !s.keyAllowed
  let c := if s.cursor.column = 0 ∧ s.cursor.sees '\ufeff' then s.cursor.next else s.cursor
  (c.skipWhile fun ch => ch == ' ' || (tabs && ch == '\t')).skipComment

/-- Skips the rest of a line that holds no token; `none` if it does hold one. -/
def skipLine? (s : Layout) : Option Layout :=
  let c := s.behindBlanks
  if c.breakLength = 0 then none
  else
    some { s with
      cursor := c.advance c.breakLength
      keyAllowed := s.keyAllowed || !s.inFlow }

/-- Skips blanks and a comment on the last line before the next token. -/
def skipBlanks (s : Layout) : Layout := { s with cursor := s.behindBlanks }

/-- Skips everything up to the next token. -/
def skipSpacing (s : Layout) : Layout :=
  match s.skipLine? with
  | none => s.skipBlanks
  | some t =>
    if _ : t.cursor.rest.length < s.cursor.rest.length then skipSpacing t else t
termination_by s.cursor.rest.length
decreasing_by assumption

/-! ## Candidates for keys -/

/-- The greatest number of octets from the start of a key to its colon. -/
def keyReach : Nat := 1024

/-- Whether a candidate is too far from its colon by now. -/
def KeyCandidate.isStale (k : KeyCandidate) (c : Cursor) : Bool :=
  k.line < c.line || k.offset + keyReach < c.offset

/-- A candidate that may still be a key; a required one must not be stale. -/
def stillCandidate? (c : Cursor) : Option KeyCandidate → Option (Option KeyCandidate)
  | none => some none
  | some k =>
    if KeyCandidate.isStale k c then if k.required then none else some none
    else some (some k)

/-- Drops the stale candidates. -/
def dropStale? (s : Layout) : Option Layout := do
  let candidate ← stillCandidate? s.cursor s.candidate
  let around ← s.around.mapM (stillCandidate? s.cursor)
  pure { s with candidate := candidate, around := around }

/-- Drops the innermost candidate, unless it is required. -/
def dropCandidate? (s : Layout) : Option Layout :=
  if s.candidate.any KeyCandidate.required then none
  else some { s with candidate := none }

/-- Makes the node that starts here a candidate, if it may be a key. -/
def noteCandidate? (s : Layout) : Option Layout :=
  if !s.keyAllowed then some s
  else
    let c := s.cursor
    let required := !s.inFlow && s.indent == (c.column : Int)
    s.dropCandidate?.map fun t =>
      { t with candidate := some ⟨s.tokens.length, c.offset, c.line, c.column, required⟩ }

/-! ## Indentation -/

/-- Opens a block collection at `column`, behind the first `position` tokens, if the column
is further in than the innermost one. -/
def indentTo (s : Layout) (column position : Nat) (token : Token) : Layout :=
  if s.inFlow ∨ (column : Int) ≤ s.indent then s
  else insertAt { s with indent := column, outer := s.indent :: s.outer } position token

/-- Closes block collections until the innermost one is not further in than `column`. -/
def closeTo (column : Int) (indent : Int) (tokens : List Token) : List Int →
    Int × List Int × List Token
  | [] => (indent, [], tokens)
  | i :: outer =>
    if column < indent then closeTo column i (.blockEnd :: tokens) outer
    else (indent, i :: outer, tokens)

/-- Closes the block collections that are further in than `column`. -/
def unindentTo (s : Layout) (column : Int) : Layout :=
  if s.inFlow then s
  else
    let (indent, outer, tokens) := closeTo column s.indent s.tokens s.outer
    { s with indent := indent, outer := outer, tokens := tokens }

/-! ## Tokens -/

/-- Reads a directive or a document marker, which closes all that is open. -/
def readTop? (s : Layout) (token : Token) (after : Cursor) : Option Layout :=
  (s.unindentTo (-1)).dropCandidate?.map fun t => t.emit token after false

def openFlow? (s : Layout) (token : Token) : Option Layout :=
  s.noteCandidate?.map fun t =>
    { t.emit token t.cursor.next true with
      candidate := none, around := t.candidate :: t.around }

def closeFlow? (s : Layout) (token : Token) : Option Layout :=
  s.dropCandidate?.map fun t =>
    let closed := t.emit token t.cursor.next false
    match t.around with
    | [] => closed
    | outer :: around => { closed with candidate := outer, around := around }

def readComma? (s : Layout) : Option Layout :=
  s.dropCandidate?.map fun t => t.emit .comma t.cursor.next true

/-- Reads the hyphen of an item. -/
def readItem? (s : Layout) : Option Layout :=
  if !s.inFlow && !s.keyAllowed then none
  else
    (s.indentTo s.cursor.column s.tokens.length .blockSequence).dropCandidate?.map fun t =>
      t.emit .item t.cursor.next true

/-- Reads the question mark of a key. -/
def readKey? (s : Layout) : Option Layout :=
  if !s.inFlow && !s.keyAllowed then none
  else
    (s.indentTo s.cursor.column s.tokens.length .blockMapping).dropCandidate?.map fun t =>
      t.emit .key t.cursor.next !t.inFlow

/-- Reads the colon of a value. If there is a candidate, it is a key. -/
def readValue? (s : Layout) : Option Layout :=
  match s.candidate with
  | some k =>
    let t := (s.insertAt k.tokens .key).indentTo k.column k.tokens .blockMapping
    some { t.emit .value t.cursor.next false with candidate := none }
  | none =>
    if !s.inFlow && !s.keyAllowed then none
    else
      let t := s.indentTo s.cursor.column s.tokens.length .blockMapping
      some (t.emit .value t.cursor.next !t.inFlow)

/-- Whether a name may end in front of a character. -/
def endsName : List Char → Bool
  | [] => true
  | c :: _ => isSpacing c || "?:,]\x7d%@`".toList.contains c

/-- Reads the name of an anchor or a reference from its mark on. -/
def readName? (s : Layout) (token : List Char → Token) : Option Layout := do
  let t ← s.noteCandidate?
  let name := t.cursor.next.rest.takeWhile isNameChar
  let after := t.cursor.next.advance name.length
  if name = [] ∨ !endsName after.rest then none
  else pure (t.emit (token name) after false)

def readTagToken? (s : Layout) : Option Layout := do
  let t ← s.noteCandidate?
  let (tag, after) ← readTag t.inFlow t.cursor
  pure (t.emit (.tag tag) after false)

def readBlockToken? (s : Layout) (literal : Bool) : Option Layout := do
  let t ← s.dropCandidate?
  let (text, after) ← readBlock literal t.indent t.cursor.next
  pure (t.emit (.scalar (if literal then .literal else .folded) text) after true)

def readQuotedToken? (s : Layout) (single : Bool) : Option Layout := do
  let t ← s.noteCandidate?
  let (text, after) ← readQuoted single t.cursor.next
  pure (t.emit (.scalar (if single then .singleQuoted else .doubleQuoted) text) after false)

def readPlainToken? (s : Layout) : Option Layout := do
  let t ← s.noteCandidate?
  let r ← readPlain t.inFlow (t.indent + 1) [] false t.cursor
  pure (t.emit (.scalar .plain r.text) r.after r.broken)

/-- Whether a plain scalar may start with the character `c`, which `rest` follows. -/
def startsPlain (flow : Bool) (c : Char) (rest : List Char) : Bool :=
  if c == '-' then !rest.head?.any isBlank
  else if c == '?' || c == ':' then !flow && !atSpacing rest
  else !isSpacing c && !(",[]\x7b\x7d#&*!|>'\"%@`".toList.contains c)

/-- Reads the token that starts with the character `c`, which `rest` follows. -/
def readToken? (s : Layout) (c : Char) (rest : List Char) : Option Layout :=
  let flow := s.inFlow
  if s.cursor.column = 0 ∧ c = '%' then
    (readDirective s.cursor.next).bind fun r => s.readTop? (.directive r.1) r.2
  else if s.cursor.atMarker then
    s.readTop? (if c = '-' then .documentStart else .documentEnd) (s.cursor.advance 3)
  else if c = '[' then s.openFlow? .flowSequence
  else if c = '\x7b' then s.openFlow? .flowMapping
  else if c = ']' then s.closeFlow? .flowSequenceEnd
  else if c = '\x7d' then s.closeFlow? .flowMappingEnd
  else if c = ',' then s.readComma?
  else if c = '-' ∧ atSpacing rest then s.readItem?
  else if c = '?' ∧ (flow ∨ atSpacing rest) then s.readKey?
  else if c = ':' ∧ (flow ∨ atSpacing rest) then s.readValue?
  else if c = '*' then s.readName? .alias
  else if c = '&' then s.readName? .anchor
  else if c = '!' then s.readTagToken?
  else if c = '|' ∧ !flow then s.readBlockToken? true
  else if c = '>' ∧ !flow then s.readBlockToken? false
  else if c = '\'' then s.readQuotedToken? true
  else if c = '"' then s.readQuotedToken? false
  else if startsPlain flow c rest then s.readPlainToken?
  else none

/-- Reads all tokens up to the end of the text; the last one comes first. -/
def readAll? (s : Layout) : Option (List Token) :=
  match s.skipSpacing.dropStale? with
  | none => none
  | some t =>
    let u := t.unindentTo t.cursor.column
    match u.cursor.rest with
    | [] => (u.unindentTo (-1)).dropCandidate?.map fun v => .streamEnd :: v.tokens
    | c :: rest =>
      match u.readToken? c rest with
      | none => none
      | some v =>
        if _ : v.cursor.rest.length < s.cursor.rest.length then readAll? v else none
termination_by s.cursor.rest.length
decreasing_by assumption

end Layout

/-- The tokens of a text, if all its characters are allowed and it can be read to the end. -/
def tokens? (text : String) : Option (List Token) :=
  if text.toList.all isAllowed then (Layout.start text.toList).readAll?.map List.reverse
  else none

end Stencil.Yaml
