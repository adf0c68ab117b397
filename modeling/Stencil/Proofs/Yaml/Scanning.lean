import Stencil.Json.Quoted
import Stencil.Proofs.Yaml.Scalars
import Stencil.Yaml.Layout

/-!
# Steps of reading tokens

Inside of brackets, on one line, reading tokens goes from place to place, and each token of a JSON
text leads to the next place: a bracket, a comma and a scalar to the place behind it, and a name
with its colon to the place in front of the value. Only a key is more than what is written. Its
token is put in front of a name when the colon behind the name comes, so the name must not be longer
than a key may be.

## Main results

* `readAll?_of_token` — one step of reading tokens.
* `leads_name` — a name that is not too long is a key.
-/

namespace Stencil.Yaml

open Json (quoteChars escape)
open String (utf8Len)

namespace Layout

/-! ## Steps of reading tokens -/

/-- Whether a character is no spacing, and does not start a comment or mark the order of bytes. -/
def isSolid (ch : Char) : Bool := !isSpacing ch && ch != '#' && ch != '\ufeff'

theorem isSolid_of_isWordChar {ch : Char} (h : isWordChar ch = true) : isSolid ch = true := by
  have hOther : ∀ {other : Char}, isWordChar other = false → ch ≠ other := ne_of_isWordChar h
  simp (disch := decide) [isSolid, isSpacing_of_isWordChar h, hOther]

/-- No candidate has to be a key. -/
def Optional (s : Layout) : Prop := ∀ k? ∈ s.candidate :: s.around, ∀ k ∈ k?, k.required = false

/-- Each candidate that has to be a key may still be one. -/
def Lasting (s : Layout) : Prop := ∀ k? ∈ s.candidate :: s.around, ∀ k ∈ k?,
  k.required = true → KeyCandidate.isStale k s.cursor = false

theorem Optional.lasting {s : Layout} (h : s.Optional) : s.Lasting := by
  intro k? hMem k hKey hRequired
  rw [h k? hMem k hKey] at hRequired
  cases hRequired

/-- The state with the stale candidates dropped. -/
def fresh (s : Layout) : Layout :=
  { s with
    candidate := s.candidate.filter fun k => !KeyCandidate.isStale k s.cursor
    around := s.around.map fun k? => k?.filter fun k => !KeyCandidate.isStale k s.cursor }

/-- The candidate that starts inside of brackets. -/
def here (s : Layout) : KeyCandidate :=
  ⟨s.tokens.length, s.cursor.offset, s.cursor.line, s.cursor.column, false⟩

/-- The state with a candidate for the node that starts inside of brackets, if one may. -/
def noted (s : Layout) : Layout :=
  if s.keyAllowed then { s with candidate := some s.here } else s

variable {s t : Layout} {ch : Char} {rest : List Char}

/-- Blanks behind which a token stands, or the end, are all that is skipped. -/
theorem skipSpacing_of_behindBlanks {c : Cursor} (hBlanks : s.behindBlanks = c)
    (h : ∀ ch ∈ c.rest.head?, isSolid ch = true) : s.skipSpacing = { s with cursor := c } := by
  simp only [isSolid, isSpacing, Bool.and_eq_true, Bool.not_eq_true', Bool.or_eq_false_iff] at h
  have hBreak : c.breakLength = 0 := by
    unfold Cursor.breakLength
    split
    · rename_i hRest
      exact absurd (h '\r' (by rw [hRest]; rfl)).1.1.2 (by decide)
    · rename_i ch _ _ hRest
      rw [if_neg (by simp [h ch (by rw [hRest]; rfl)])]
    · rfl
  have hLine : s.skipLine? = none := by
    rw [skipLine?, hBlanks]
    exact if_pos hBreak
  rw [skipSpacing, hLine]
  show s.skipBlanks = _
  rw [skipBlanks, hBlanks]

/-- In front of a token, and at the end, there is nothing to be skipped. -/
theorem skipSpacing_of_solid (h : ∀ ch ∈ s.cursor.rest.head?, isSolid ch = true) :
    s.skipSpacing = s := by
  refine skipSpacing_of_behindBlanks ?_ h
  simp only [isSolid, isSpacing, isBlank, Bool.and_eq_true, Bool.not_eq_true',
    Bool.or_eq_false_iff, bne_iff_ne, beq_eq_false_iff_ne] at h
  cases hRest : s.cursor.rest with
  | nil =>
      simp [behindBlanks, Cursor.skipWhile, Cursor.skipComment, Cursor.sees, Cursor.advance, hRest]
  | cons ch rest =>
      have hSolid := h ch (by rw [hRest]; rfl)
      simp [behindBlanks, Cursor.skipWhile, Cursor.skipComment, Cursor.sees, Cursor.advance,
        hRest, hSolid]

theorem stillCandidate?_of_lasting {c : Cursor} {k? : Option KeyCandidate}
    (h : ∀ k ∈ k?, k.required = true → KeyCandidate.isStale k c = false) :
    stillCandidate? c k? = some (k?.filter fun k => !KeyCandidate.isStale k c) := by
  cases k? with
  | none => rfl
  | some k =>
      by_cases hStale : KeyCandidate.isStale k c
      · have hRequired : k.required ≠ true := fun hKey => by simp [h k rfl hKey] at hStale
        simp [stillCandidate?, hStale, hRequired, Option.filter]
      · simp [stillCandidate?, hStale, Option.filter]

theorem dropStale?_of_lasting (h : s.Lasting) : s.dropStale? = some s.fresh := by
  have hAround : ∀ around : List (Option KeyCandidate),
      (∀ k? ∈ around, ∀ k ∈ k?, k.required = true → KeyCandidate.isStale k s.cursor = false) →
        around.mapM (stillCandidate? s.cursor) =
          some (around.map fun k? => k?.filter fun k => !KeyCandidate.isStale k s.cursor) := by
    intro around hAround
    induction around with
    | nil => rfl
    | cons k? around ih =>
        rw [List.mapM_cons, stillCandidate?_of_lasting (hAround k? List.mem_cons_self),
          ih fun l hMem => hAround l (List.mem_cons_of_mem k? hMem)]
        rfl
  rw [dropStale?, stillCandidate?_of_lasting (h s.candidate List.mem_cons_self),
    hAround _ fun k? hMem => h k? (List.mem_cons_of_mem _ hMem)]
  rfl

theorem dropCandidate?_of_optional (h : s.Optional) :
    s.dropCandidate? = some { s with candidate := none } := by
  rw [dropCandidate?, if_neg]
  cases hCandidate : s.candidate with
  | none => simp
  | some k => simp [h (some k) (hCandidate ▸ List.mem_cons_self) k rfl]

theorem noteCandidate?_of_optional (hFlow : s.inFlow = true) (h : s.Optional) :
    s.noteCandidate? = some s.noted := by
  rw [noteCandidate?, noted, dropCandidate?_of_optional h, hFlow]
  cases s.keyAllowed <;> rfl

/-- Where no block collection is open none is closed. -/
theorem unindentTo_of_outer (h : s.outer = []) (column : Int) : s.unindentTo column = s := by
  obtain ⟨_, _, _, outer, _, _, _⟩ := s
  obtain rfl : outer = [] := h
  simp [unindentTo, closeTo]

/-- One step of reading tokens takes the token behind the spacing, if no block collection ends in
front of it. -/
theorem readAll?_of_token {u : Layout} (hSkip : s.skipSpacing = u) (hLasting : u.Lasting)
    (hIndent : u.fresh.unindentTo u.cursor.column = u.fresh) (hRest : u.cursor.rest = ch :: rest)
    (hRead : u.fresh.readToken? ch rest = some t)
    (hLt : t.cursor.rest.length < s.cursor.rest.length) : s.readAll? = t.readAll? := by
  have hFreshRest : u.fresh.cursor.rest = ch :: rest := hRest
  have hFresh : u.fresh.unindentTo u.fresh.cursor.column = u.fresh := hIndent
  rw [readAll?, hSkip, dropStale?_of_lasting hLasting]
  dsimp only
  rw [hFresh, hFreshRest]
  dsimp only
  rw [hRead]
  exact dif_pos hLt

/-- At the end of the text the block collections end that are open. -/
theorem readAll?_of_end {u : Layout} (hSkip : s.skipSpacing = u) (hLasting : u.Lasting)
    (hIndent : u.fresh.unindentTo u.cursor.column = u.fresh) (hRest : u.cursor.rest = []) :
    s.readAll? = (u.fresh.unindentTo (-1)).dropCandidate?.map fun v => .streamEnd :: v.tokens := by
  have hFreshRest : u.fresh.cursor.rest = [] := hRest
  have hFresh : u.fresh.unindentTo u.fresh.cursor.column = u.fresh := hIndent
  rw [readAll?, hSkip, dropStale?_of_lasting hLasting]
  dsimp only
  rw [hFresh, hFreshRest]

/-! ## Places -/

/-- A place on the line of a JSON text. -/
structure Place where
  /-- Whether the name of a member may stand here. -/
  keyAllowed : Bool
  /-- The number of open brackets. -/
  opened : Nat
  /-- The YAML tokens read, the last one first. -/
  tokens : List Token
  /-- The tokens of the JSON text that are ahead. -/
  ahead : List (List Char)

/-- Reading tokens stands at a place. -/
structure At (s : Layout) (p : Place) : Prop where
  rest : s.cursor.rest = p.ahead.flatten
  line : OnOneLine s.cursor.rest
  column : s.cursor.column ≠ 0
  tokens : s.tokens = p.tokens
  opened : s.around.length = p.opened
  outer : s.outer = []
  keyAllowed : p.keyAllowed = true → s.keyAllowed = true
  optional : s.Optional

/-- Reading on from the place `p` is reading on from the place `q`. -/
def Place.Leads (p q : Place) : Prop :=
  ∀ s : Layout, s.At p → ∃ t : Layout, t.At q ∧ s.readAll? = t.readAll?

variable {p q r : Place} {b key : Bool} {n m : Nat} {tokens tokens' : List Token}
  {word : List Char} {ahead : List (List Char)} {token : Token}

theorem Place.Leads.trans (h : p.Leads q) (h' : q.Leads r) : p.Leads r := by
  intro s hAt
  obtain ⟨t, hAtT, hRead⟩ := h s hAt
  obtain ⟨u, hAtU, hRead'⟩ := h' t hAtT
  exact ⟨u, hAtU, hRead.trans hRead'⟩

theorem At.fresh (h : s.At p) : s.fresh.At p where
  rest := h.rest
  line := h.line
  column := h.column
  tokens := h.tokens
  opened := by rw [← h.opened]; exact List.length_map _
  outer := h.outer
  keyAllowed := h.keyAllowed
  optional := by
    have hFilter : ∀ {k? : Option KeyCandidate} {f : KeyCandidate → Bool} {k : KeyCandidate},
        k ∈ k?.filter f → k ∈ k? := fun hMem => (Option.mem_filter_iff.mp hMem).1
    intro k? hMem k hKey
    rcases List.mem_cons.mp hMem with rfl | hAround
    · exact h.optional _ List.mem_cons_self k (hFilter hKey)
    · obtain ⟨l?, hOld, rfl⟩ := List.mem_map.mp hAround
      exact h.optional _ (List.mem_cons_of_mem _ hOld) k (hFilter hKey)

theorem At.noted (h : s.At p) : s.noted.At p := by
  unfold Layout.noted
  split
  · refine { h with optional := ?_ }
    intro k? hMem k hKey
    rcases List.mem_cons.mp hMem with rfl | hAround
    · obtain rfl := Option.some.inj hKey
      rfl
    · exact h.optional _ (List.mem_cons_of_mem _ hAround) k hKey
  · exact h

theorem At.dropped (h : s.At p) : ({ s with candidate := none } : Layout).At p := by
  refine { h with optional := ?_ }
  intro k? hMem
  rcases List.mem_cons.mp hMem with rfl | hAround
  · exact nofun
  · exact h.optional k? (List.mem_cons_of_mem _ hAround)

/-- Behind the token ahead is the next place. -/
theorem At.emit (h : s.At ⟨b, n, tokens, word :: ahead⟩) :
    (s.emit token (s.cursor.behind word ahead.flatten) key).At
      ⟨key, n, token :: tokens, ahead⟩ where
  rest := rfl
  line := by
    have hLine := h.line
    rw [h.rest] at hLine
    exact hLine.right
  column := Cursor.column_behind (.inl h.column)
  tokens := congrArg (token :: ·) h.tokens
  opened := h.opened
  outer := h.outer
  keyAllowed := id
  optional := h.optional

theorem At.inFlow (h : s.At ⟨b, n + 1, tokens, ahead⟩) : s.inFlow = true := by
  have hOpened := h.opened
  cases hAround : s.around with
  | nil => simp [hAround] at hOpened
  | cons => simp [Layout.inFlow, hAround]

theorem At.emit_next (h : s.At ⟨b, n, tokens, [ch] :: ahead⟩) :
    (s.emit token s.cursor.next key).At ⟨key, n, token :: tokens, ahead⟩ := by
  have hBreak : isBreak ch = false := h.line ch (by rw [h.rest]; exact List.mem_cons_self)
  rw [Cursor.next_eq_behind h.rest hBreak]
  exact h.emit

/-- A token that is read at a place leads to the state behind it. -/
theorem At.readAll?_eq (h : s.At ⟨b, n, tokens, (ch :: word) :: ahead⟩) (hSolid : isSolid ch = true)
    (hRead : s.fresh.readToken? ch (word ++ ahead.flatten) = some t)
    (hAtT : t.At ⟨key, m, tokens', ahead⟩) : s.readAll? = t.readAll? := by
  have hRest : t.cursor.rest = ahead.flatten := hAtT.rest
  have hSkip : s.skipSpacing = s := skipSpacing_of_solid fun d hMem => by
    rw [h.rest] at hMem
    exact Option.some.inj hMem ▸ hSolid
  have hIndent : s.fresh.unindentTo s.cursor.column = s.fresh :=
    unindentTo_of_outer h.fresh.outer _
  refine readAll?_of_token hSkip h.optional.lasting hIndent h.rest hRead ?_
  rw [hRest, h.rest, List.flatten_cons, List.length_append, List.length_cons]
  omega

theorem leads_of_token (hSolid : isSolid ch = true)
    (h : ∀ s : Layout, s.At ⟨b, n, tokens, (ch :: word) :: ahead⟩ →
      ∃ t : Layout, s.readToken? ch (word ++ ahead.flatten) = some t ∧
        t.At ⟨key, m, tokens', ahead⟩) :
    Place.Leads ⟨b, n, tokens, (ch :: word) :: ahead⟩ ⟨key, m, tokens', ahead⟩ := by
  intro s hAt
  obtain ⟨t, hRead, hAtT⟩ := h s.fresh hAt.fresh
  exact ⟨t, hAtT, hAt.readAll?_eq hSolid hRead hAtT⟩

/-! ## Brackets and commas -/

/-- Inside of brackets nothing but the character tells what is read. -/
theorem readToken?_of_column (hColumn : s.cursor.column ≠ 0) (hFlow : s.inFlow = true) :
    s.readToken? ch rest =
      if ch = '[' then s.openFlow? .flowSequence
      else if ch = '\x7b' then s.openFlow? .flowMapping
      else if ch = ']' then s.closeFlow? .flowSequenceEnd
      else if ch = '\x7d' then s.closeFlow? .flowMappingEnd
      else if ch = ',' then s.readComma?
      else if ch = '-' ∧ atSpacing rest then s.readItem?
      else if ch = '?' then s.readKey?
      else if ch = ':' then s.readValue?
      else if ch = '*' then s.readName? .alias
      else if ch = '&' then s.readName? .anchor
      else if ch = '!' then s.readTagToken?
      else if ch = '\'' then s.readQuotedToken? true
      else if ch = '"' then s.readQuotedToken? false
      else if startsPlain true ch rest then s.readPlainToken?
      else none := by
  have hMarker := Cursor.atMarker_of_column hColumn
  simp [readToken?, hColumn, hMarker, hFlow]

theorem leads_open {mark : Token}
    (h : ch = '[' ∧ mark = .flowSequence ∨ ch = '\x7b' ∧ mark = .flowMapping) :
    Place.Leads ⟨b, n + 1, tokens, [ch] :: ahead⟩ ⟨true, n + 2, mark :: tokens, ahead⟩ := by
  refine leads_of_token (by rcases h with ⟨rfl, -⟩ | ⟨rfl, -⟩ <;> decide) fun s hAt => ?_
  have hRead : s.readToken? ch ([] ++ ahead.flatten) = s.openFlow? mark := by
    rw [readToken?_of_column hAt.column hAt.inFlow]
    rcases h with ⟨rfl, rfl⟩ | ⟨rfl, rfl⟩ <;> rfl
  have hEmit : (s.noted.emit mark s.noted.cursor.next true).At
      ⟨true, n + 1, mark :: tokens, ahead⟩ := hAt.noted.emit_next
  have hOpen : s.openFlow? mark = some { s.noted.emit mark s.noted.cursor.next true with
      candidate := none
      around := s.noted.candidate :: s.noted.around } := by
    rw [openFlow?, noteCandidate?_of_optional hAt.inFlow hAt.optional]
    rfl
  refine ⟨_, hRead.trans hOpen,
    { hEmit with opened := congrArg (· + 1) hEmit.opened, optional := ?_ }⟩
  intro k? hMem
  rcases List.mem_cons.mp hMem with rfl | hAround
  · exact nofun
  · exact hEmit.optional k? hAround

theorem leads_close {mark : Token}
    (h : ch = ']' ∧ mark = .flowSequenceEnd ∨ ch = '\x7d' ∧ mark = .flowMappingEnd) :
    Place.Leads ⟨b, n + 1, tokens, [ch] :: ahead⟩ ⟨false, n, mark :: tokens, ahead⟩ := by
  refine leads_of_token (by rcases h with ⟨rfl, -⟩ | ⟨rfl, -⟩ <;> decide) fun s hAt => ?_
  have hRead : s.readToken? ch ([] ++ ahead.flatten) = s.closeFlow? mark := by
    rw [readToken?_of_column hAt.column hAt.inFlow]
    rcases h with ⟨rfl, rfl⟩ | ⟨rfl, rfl⟩ <;> rfl
  have hEmit : (s.emit mark s.cursor.next false).At ⟨false, n + 1, mark :: tokens, ahead⟩ :=
    hAt.emit_next
  have hOpened := hAt.opened
  cases hAround : s.around with
  | nil => simp [hAround] at hOpened
  | cons k? around =>
      have hClose : s.closeFlow? mark = some { s.emit mark s.cursor.next false with
          candidate := k?
          around := around } := by
        rw [closeFlow?, dropCandidate?_of_optional hAt.optional, Option.map_some, hAround]
        rfl
      rw [hAround] at hOpened
      refine ⟨_, hRead.trans hClose, { hEmit with opened := Nat.succ.inj hOpened, optional := ?_ }⟩
      exact fun l? hMem => hAt.optional l? (List.mem_cons_of_mem _ (hAround ▸ hMem))

theorem leads_comma :
    Place.Leads ⟨b, n + 1, tokens, [','] :: ahead⟩ ⟨true, n + 1, .comma :: tokens, ahead⟩ := by
  refine leads_of_token rfl fun s hAt => ⟨_, ?_, hAt.dropped.emit_next⟩
  rw [readToken?_of_column hAt.column hAt.inFlow]
  show s.readComma? = _
  rw [readComma?, dropCandidate?_of_optional hAt.optional]
  rfl

/-! ## Scalars -/

theorem readQuotedToken?_of_at {cs : List Char}
    (h : s.At ⟨b, n + 1, tokens, quoteChars cs :: ahead⟩) :
    s.readQuotedToken? false = some (s.noted.emit (.scalar .doubleQuoted cs)
      (s.noted.cursor.behind (quoteChars cs) ahead.flatten) false) := by
  have hRest : s.noted.cursor.rest = quoteChars cs ++ ahead.flatten := h.noted.rest
  have hLine := h.noted.line
  rw [hRest] at hLine
  rw [readQuotedToken?, noteCandidate?_of_optional h.inFlow h.optional]
  simp [readQuoted_of_quoteChars hRest hLine.left]

theorem leads_string (s : String) :
    Place.Leads ⟨b, n + 1, tokens, quoteChars s.toList :: ahead⟩
      ⟨false, n + 1, .scalar .doubleQuoted s.toList :: tokens, ahead⟩ := by
  refine leads_of_token rfl fun t hAt => ⟨_, ?_, hAt.noted.emit⟩
  rw [readToken?_of_column hAt.column hAt.inFlow]
  exact readQuotedToken?_of_at hAt

theorem startsPlain_of_word {flow : Bool} (hChar : isWordChar ch = true)
    (hDash : ch = '-' → atSpacing rest = false) : startsPlain flow ch rest = true := by
  have hOther : ∀ {other : Char}, isWordChar other = false → ch ≠ other := ne_of_isWordChar hChar
  by_cases hMinus : ch = '-'
  · have hBehind := hDash hMinus
    cases rest with
    | nil => cases hBehind
    | cons d rest =>
        have hBlank : isBlank d = false := (Bool.or_eq_false_iff.mp hBehind).1
        simp [startsPlain, hMinus, hBlank]
  · simp (disch := decide) [startsPlain, hMinus, isSpacing_of_isWordChar hChar, hOther]

/-- A word is read as a plain scalar. -/
theorem readToken?_of_word (hMarker : s.cursor.atMarker = false) (hChar : isWordChar ch = true)
    (hDash : ch = '-' → atSpacing rest = false) : s.readToken? ch rest = s.readPlainToken? := by
  have hOther : ∀ {other : Char}, isWordChar other = false → ch ≠ other := ne_of_isWordChar hChar
  have hItem : ¬ (ch = '-' ∧ atSpacing rest = true) := fun h => by simp [hDash h.1] at h
  simp (disch := decide) only [readToken?, hMarker, hOther, hItem, and_false, false_and, if_false,
    Bool.false_eq_true, startsPlain_of_word hChar hDash, if_true]

theorem leads_word (hNil : word ≠ []) (hWord : ∀ ch ∈ word, isWordChar ch = true)
    (hEnd : AtFlowMark ahead.flatten) :
    Place.Leads ⟨b, n + 1, tokens, word :: ahead⟩
      ⟨false, n + 1, .scalar .plain word :: tokens, ahead⟩ := by
  cases word with
  | nil => exact absurd rfl hNil
  | cons ch word =>
      have hChar := hWord ch List.mem_cons_self
      have hMark : atSpacing ahead.flatten = false := by
        obtain ⟨d, rest, hRest, hMark⟩ := hEnd
        rw [hRest]
        exact isSpacing_of_isFlowMark hMark
      have hBehind : atSpacing (word ++ ahead.flatten) = false :=
        atSpacing_append (fun d hMem => hWord d (List.mem_cons_of_mem ch hMem)) hMark
      refine leads_of_token (isSolid_of_isWordChar hChar) fun s hAt => ⟨_, ?_, hAt.noted.emit⟩
      have hRead : ∀ indent, readPlain true indent [] false s.noted.cursor =
          some ⟨ch :: word, false, s.noted.cursor.behind (ch :: word) ahead.flatten⟩ := fun _ =>
        readPlain_of_rest (Cursor.atMarker_of_column hAt.noted.column) hAt.noted.rest hNil hWord
          hEnd.plainWord hEnd.takeWhile
      have hFlow : s.noted.inFlow = true := hAt.noted.inFlow
      rw [readToken?_of_word (Cursor.atMarker_of_column hAt.column) hChar fun _ => hBehind,
        readPlainToken?, noteCandidate?_of_optional hAt.inFlow hAt.optional]
      simp [hFlow, hRead]

/-- At the colon behind a candidate, its key token is put in front of it. A block mapping may start
with the key. -/
theorem readValue?_of_candidate {k : KeyCandidate} {u : Layout} (hCandidate : s.candidate = some k)
    (hTokens : s.tokens = token :: tokens) (hPosition : k.tokens = tokens.length)
    (hIndent : ({ s with tokens := token :: .key :: tokens } : Layout).indentTo k.column k.tokens
      .blockMapping = u) :
    s.readValue? = some { u.emit .value u.cursor.next false with candidate := none } := by
  have hLater : s.tokens.length - k.tokens = 1 := by
    rw [hTokens, hPosition, List.length_cons]
    omega
  have hInsert : s.insertAt k.tokens .key = { s with tokens := token :: .key :: tokens } := by
    rw [insertAt, hLater, hTokens]
    rfl
  rw [readValue?, hCandidate]
  dsimp only
  rw [hInsert, hIndent]

/-- A colon near enough to a candidate makes a key of it. -/
theorem At.exists_key {k : KeyCandidate} (h : s.At ⟨b, n + 1, token :: tokens, [':'] :: ahead⟩)
    (hCandidate : s.candidate = some k) (hFresh : KeyCandidate.isStale k s.cursor = false)
    (hPosition : k.tokens = tokens.length) :
    ∃ t : Layout, t.At ⟨false, n + 1, .value :: token :: .key :: tokens, ahead⟩ ∧
      s.readAll? = t.readAll? := by
  have hKept : s.fresh.candidate = some k := by
    simp [Layout.fresh, hCandidate, hFresh, Option.filter]
  have hEmit : (({ s.fresh with candidate := none } : Layout).emit .value s.fresh.cursor.next
      false).At ⟨false, n + 1, .value :: token :: tokens, ahead⟩ := h.fresh.dropped.emit_next
  let t : Layout := { s.fresh with
    cursor := s.fresh.cursor.next
    tokens := .value :: token :: .key :: tokens
    candidate := none
    keyAllowed := false }
  have hAt : t.At ⟨false, n + 1, .value :: token :: .key :: tokens, ahead⟩ :=
    { hEmit with tokens := rfl }
  refine ⟨t, hAt, h.readAll?_eq rfl ?_ hAt⟩
  rw [readToken?_of_column h.fresh.column h.fresh.inFlow]
  exact readValue?_of_candidate hKept h.fresh.tokens hPosition (if_pos (.inl h.fresh.inFlow))

/-- A name that is not too long is a key. -/
theorem leads_name (name : String) (hReach : utf8Len (quoteChars name.toList) ≤ keyReach) :
    Place.Leads ⟨true, n + 1, tokens, quoteChars name.toList :: [':'] :: ahead⟩
      ⟨false, n + 1, .value :: .scalar .doubleQuoted name.toList :: .key :: tokens, ahead⟩ := by
  intro s hAt
  let t := s.fresh.noted.emit (.scalar .doubleQuoted name.toList)
    (s.fresh.noted.cursor.behind (quoteChars name.toList) ([':'] :: ahead).flatten) false
  have hAtT : t.At ⟨false, n + 1, .scalar .doubleQuoted name.toList :: tokens, [':'] :: ahead⟩ :=
    hAt.fresh.noted.emit
  have hRead : s.readAll? = t.readAll? := by
    refine hAt.readAll?_eq rfl ?_ hAtT
    rw [readToken?_of_column hAt.fresh.column hAt.fresh.inFlow]
    exact readQuotedToken?_of_at hAt.fresh
  have hNoted : s.fresh.noted = { s.fresh with candidate := some s.fresh.here } :=
    if_pos (hAt.keyAllowed rfl)
  have hCandidate : t.candidate = some s.fresh.here := by
    simp only [t, hNoted, emit]
  have hFresh : KeyCandidate.isStale s.fresh.here t.cursor = false := by
    simp only [t, hNoted, emit, Cursor.behind, here, KeyCandidate.isStale]
    simpa using hReach
  obtain ⟨u, hAtU, hRead'⟩ := hAtT.exists_key hCandidate hFresh (congrArg List.length hAt.tokens)
  exact ⟨u, hAtU, hRead.trans hRead'⟩

/-! ## The start and the end of a text -/

/-- At the end of the text all tokens have been read. -/
theorem At.readAll?_end (h : s.At ⟨b, n, tokens, []⟩) :
    s.readAll? = some (.streamEnd :: tokens) := by
  have hRest : s.cursor.rest = [] := h.rest
  have hSkip : s.skipSpacing = s := skipSpacing_of_solid (by simp [hRest])
  have hTokens : s.fresh.tokens = tokens := h.fresh.tokens
  rw [readAll?_of_end hSkip h.optional.lasting (unindentTo_of_outer h.fresh.outer _) hRest,
    unindentTo_of_outer h.fresh.outer, dropCandidate?_of_optional h.fresh.optional]
  exact congrArg (fun read => some (Token.streamEnd :: read)) hTokens

/-- The brace at the start of a text is not the start of a key. -/
theorem exists_open (hLine : OnOneLine ahead.flatten) :
    ∃ t : Layout, t.At ⟨true, 1, [.flowMapping], ahead⟩ ∧
      (start ('\x7b' :: ahead.flatten)).readAll? = t.readAll? := by
  let t : Layout :=
    { cursor := ⟨ahead.flatten, 1, 0, 1⟩
      tokens := [.flowMapping]
      indent := -1
      outer := []
      candidate := none
      around := [some ⟨0, 0, 0, 0, false⟩]
      keyAllowed := true }
  have hAt : t.At ⟨true, 1, [.flowMapping], ahead⟩ :=
    { rest := rfl
      line := hLine
      column := Nat.one_ne_zero
      tokens := rfl
      opened := rfl
      outer := rfl
      keyAllowed := fun _ => rfl
      optional := by simp [Optional, t] }
  have hOptional : (start ('\x7b' :: ahead.flatten)).Optional := by
    simp [Optional, start]
  have hSkip : (start ('\x7b' :: ahead.flatten)).skipSpacing = start ('\x7b' :: ahead.flatten) :=
    skipSpacing_of_solid fun d hMem => Option.some.inj hMem ▸ rfl
  exact ⟨t, hAt, readAll?_of_token hSkip hOptional.lasting rfl rfl rfl (Nat.lt_succ_self _)⟩

end Layout

end Stencil.Yaml
