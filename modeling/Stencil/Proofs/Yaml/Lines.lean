import Stencil.Proofs.Yaml.Flow

/-!
# Block mappings of one line for each entry

The common way to write a mapping is in lines, each of a name, a colon and a value. The first name
opens a block mapping in column zero, and each later name stands in that column again, where nothing
but a key can stand. The end of the text closes the mapping.

## Main results

* `exists_readAll?_line` — reading the tokens of a line leads to the start of the next one.
* `tokens?_lines` — the tokens of some lines.
* `mapping?_lines` — lines are a mapping of their entries.
-/

namespace Stencil

open Yaml
open String (utf8Len)

namespace Value

/-- A line of a block mapping. -/
def line (m : String × Value) : List Char :=
  m.1.toList ++ ':' :: ' ' :: (m.2.json.toList ++ ['\n'])

/-- The lines of a block mapping. -/
def lines (members : List (String × Value)) : String := String.ofList (members.flatMap line)

/-- The tokens of a line of a block mapping. -/
def lineTokens (m : String × Value) : List Token :=
  .key :: .scalar .plain m.1.toList :: .value :: m.2.flowTokens

/-- Whether a value has no brackets. -/
def isScalar : Value → Bool
  | .array _ => false
  | .object _ => false
  | _ => true

/-- A name that may be written without quotes: a plain word that is not too long for a key. -/
structure IsPlainName (name : String) : Prop where
  nonempty : name.toList ≠ []
  word : ∀ ch ∈ name.toList, isWordChar ch = true
  reach : utf8Len name.toList ≤ Layout.keyReach

/-- An entry that may be written on a line: a plain name, and a value without brackets that fits
the line. -/
structure IsEntry (m : String × Value) : Prop where
  name : IsPlainName m.1
  scalar : m.2.isScalar = true
  text : fitsLine m.2.json.toList = true

end Value

namespace Yaml

open Json (IsNumber quoteChars escape)

namespace Layout

variable {s t : Layout} {c : Cursor} {opened : Bool} {tokens : List Token} {ch : Char}
  {name word rest more text : List Char}

/-! ## Spacing -/

/-- A space in front of a token is skipped. -/
theorem skipSpacing_of_space (hRest : s.cursor.rest = ' ' :: ch :: rest)
    (hColumn : s.cursor.column ≠ 0) (hSolid : isSolid ch = true) :
    s.skipSpacing = { s with cursor := s.cursor.next } := by
  have hNext : s.cursor.next.rest = ch :: rest := by
    rw [Cursor.next_eq_behind hRest rfl]
    rfl
  refine skipSpacing_of_behindBlanks ?_ fun d hMem => ?_
  · simp only [isSolid, isSpacing, isBlank, Bool.and_eq_true, Bool.not_eq_true',
      Bool.or_eq_false_iff, bne_iff_ne, beq_eq_false_iff_ne] at hSolid
    simp [behindBlanks, hColumn, Cursor.skipWhile, hRest, hSolid, Cursor.advance,
      Cursor.skipComment, Cursor.sees, hNext]
  · rw [hNext] at hMem
    exact Option.some.inj hMem ▸ hSolid

/-- A line break behind a value is skipped, and then a key may follow. -/
theorem skipSpacing_of_break (hRest : s.cursor.rest = '\n' :: rest) (hColumn : s.cursor.column ≠ 0)
    (hFlow : s.inFlow = false) (hSolid : ∀ ch ∈ rest.head?, isSolid ch = true) :
    s.skipSpacing = { s with cursor := s.cursor.next, keyAllowed := true } := by
  have hNext : s.cursor.next.rest = rest := by
    rw [Cursor.next, hRest]
    rfl
  have hBlanks : s.behindBlanks = s.cursor := by
    simp [behindBlanks, hColumn, Cursor.skipWhile, hRest, Cursor.advance, Cursor.skipComment,
      Cursor.sees]
  have hBreak : s.cursor.breakLength = 1 := by
    rw [Cursor.breakLength, hRest]
    rfl
  have hLine : s.skipLine? = some { s with cursor := s.cursor.next, keyAllowed := true } := by
    rw [skipLine?, hBlanks, hBreak, if_neg Nat.one_ne_zero, hFlow, Bool.not_false, Bool.or_true]
    rfl
  have hLt : s.cursor.next.rest.length < s.cursor.rest.length := by
    rw [hNext, hRest]
    exact Nat.lt_succ_self _
  rw [skipSpacing, hLine]
  dsimp only
  rw [dif_pos hLt]
  exact skipSpacing_of_solid (by rwa [hNext])

/-! ## Places of a line -/

/-- Where tokens are read at the start of a line, inside of a block mapping or in front of one. -/
def lineStart (opened : Bool) (tokens : List Token) (c : Cursor) : Layout where
  cursor := c
  tokens := tokens
  indent := if opened then 0 else -1
  outer := if opened then [-1] else []
  candidate := none
  around := []
  keyAllowed := true

/-- Where tokens are read behind a name, which has to be a key inside of a block mapping. -/
def behindName (opened : Bool) (tokens : List Token) (c : Cursor) (name more : List Char) :
    Layout :=
  { lineStart opened (.scalar .plain name :: tokens) (c.behind name more) with
    candidate := some ⟨tokens.length, c.offset, c.line, c.column, opened⟩
    keyAllowed := false }

/-- Where tokens are read on a line behind the colon. -/
def inLine (tokens : List Token) (c : Cursor) : Layout :=
  { lineStart true tokens c with keyAllowed := false }

/-- The start of the block mapping, if there is none yet. -/
def opening (opened : Bool) : List Token := if opened then [] else [.blockMapping]

/-- The end of the block mapping, if there is one. -/
def closing (opened : Bool) : List Token := if opened then [.blockEnd] else []

/-- Reading on from `s` is reading on from the start of the lines `text`. -/
def Begins (s : Layout) (opened : Bool) (tokens : List Token) (text : List Char) : Prop :=
  ∃ c : Cursor, s.skipSpacing = lineStart opened tokens c ∧ c.rest = text ∧ c.column = 0 ∧
    text.length ≤ s.cursor.rest.length

/-! ## Steps outside of brackets -/

theorem kept_of_none (h : s.candidate = none) :
    ∀ k ∈ s.candidate, KeyCandidate.isStale k s.cursor = false := by
  simp [h]

theorem lasting_of_kept (hAround : s.around = [])
    (hKept : ∀ k ∈ s.candidate, KeyCandidate.isStale k s.cursor = false) : s.Lasting := by
  intro k? hMem k hKey _
  rw [hAround] at hMem
  obtain rfl := List.eq_of_mem_singleton hMem
  exact hKept k hKey

theorem fresh_of_kept (hAround : s.around = [])
    (hKept : ∀ k ∈ s.candidate, KeyCandidate.isStale k s.cursor = false) : s.fresh = s := by
  have hCandidate : s.candidate.filter (fun k => !KeyCandidate.isStale k s.cursor) =
      s.candidate := by
    cases hCandidate : s.candidate with
    | none => rfl
    | some k => simp [Option.filter, hKept k hCandidate]
  rw [fresh, hCandidate, hAround, List.map_nil, ← hAround]

/-- No token ends a block collection in column zero. -/
theorem unindentTo_of_indent (hIndent : s.indent ≤ 0) (column : Nat) :
    s.unindentTo column = s := by
  obtain ⟨_, _, indent, outer, _, _, _⟩ := s
  have hNot : ¬ (column : Int) < indent := by
    have hLe : indent ≤ 0 := hIndent
    omega
  cases outer <;> simp [unindentTo, closeTo, hNot]

/-- One step of reading tokens outside of brackets, where the candidate for a key is near. -/
theorem readAll?_of_kept {u : Layout} (hSkip : s.skipSpacing = u) (hAround : u.around = [])
    (hKept : ∀ k ∈ u.candidate, KeyCandidate.isStale k u.cursor = false) (hIndent : u.indent ≤ 0)
    (hRest : u.cursor.rest = ch :: rest) (hRead : u.readToken? ch rest = some t)
    (hLt : t.cursor.rest.length < s.cursor.rest.length) : s.readAll? = t.readAll? := by
  have hFresh := fresh_of_kept hAround hKept
  refine readAll?_of_token hSkip (lasting_of_kept hAround hKept) ?_ hRest ?_ hLt
  · rw [hFresh]
    exact unindentTo_of_indent hIndent u.cursor.column
  · rwa [hFresh]

theorem indent_lineStart (opened : Bool) (tokens : List Token) (c : Cursor) :
    (lineStart opened tokens c).indent ≤ 0 := by
  cases opened <;> simp [lineStart]

/-! ## Words -/

/-- A word in front of a colon does not mark the end of a document. -/
theorem atMarker_of_colon (h : c.rest = word ++ ':' :: rest)
    (hWord : ∀ ch ∈ word, isWordChar ch = true) : c.atMarker = false := by
  have hBehind : ∀ mark {tail : List Char}, ':' ∉ mark → word ++ ':' :: rest = mark ++ tail →
      atSpacing tail = false := by
    intro mark tail hMark hSame
    rcases List.append_eq_append_iff.mp hSame with ⟨between, rfl, hTail⟩ | ⟨between, rfl, rfl⟩
    · cases between with
      | nil =>
          obtain rfl : ':' :: rest = tail := hTail
          rfl
      | cons d between =>
          obtain rfl := (List.cons.inj hTail).1
          simp at hMark
    · exact atSpacing_append (fun d hMem => hWord d (List.mem_append_right mark hMem)) rfl
  rw [Cursor.atMarker, h]
  split
  · rename_i tail hSame
    rw [hBehind ['-', '-', '-'] (by decide) hSame, Bool.and_false]
  · rename_i tail hSame
    rw [hBehind ['.', '.', '.'] (by decide) hSame, Bool.and_false]
  · exact Bool.and_false _

theorem noteCandidate?_lineStart (hColumn : c.column = 0) :
    (lineStart opened tokens c).noteCandidate? = some { lineStart opened tokens c with
      candidate := some ⟨tokens.length, c.offset, c.line, c.column, opened⟩ } := by
  cases opened <;> simp [noteCandidate?, lineStart, dropCandidate?, inFlow, hColumn]

/-- A name at the start of a line may be a key. -/
theorem readAll?_name (hSkip : s.skipSpacing = lineStart opened tokens c)
    (hRest : c.rest = name ++ ':' :: ' ' :: more) (hColumn : c.column = 0)
    (hLength : c.rest.length ≤ s.cursor.rest.length) (hNil : name ≠ [])
    (hWord : ∀ ch ∈ name, isWordChar ch = true) :
    s.readAll? = (behindName opened tokens c name (':' :: ' ' :: more)).readAll? := by
  have hMarker : c.atMarker = false := atMarker_of_colon hRest hWord
  have hPlain : ∀ indent, readPlain false indent [] false c =
      some ⟨name, false, c.behind name (':' :: ' ' :: more)⟩ := fun _ =>
    readPlain_of_rest hMarker hRest hNil hWord rfl rfl
  obtain ⟨ch, tail, rfl⟩ := List.exists_cons_of_ne_nil hNil
  have hDash : ch = '-' → atSpacing (tail ++ ':' :: ' ' :: more) = false := fun _ =>
    atSpacing_append (fun d hMem => hWord d (List.mem_cons_of_mem ch hMem)) rfl
  have hRead : (lineStart opened tokens c).readToken? ch (tail ++ ':' :: ' ' :: more) =
      some (behindName opened tokens c (ch :: tail) (':' :: ' ' :: more)) := by
    refine (readToken?_of_word hMarker (hWord ch List.mem_cons_self) hDash).trans ?_
    rw [readPlainToken?, noteCandidate?_lineStart hColumn]
    show (readPlain false _ [] false c).bind _ = _
    rw [hPlain]
    rfl
  refine readAll?_of_kept hSkip rfl (kept_of_none rfl) (indent_lineStart opened tokens c) hRest
    hRead ?_
  show (':' :: ' ' :: more).length < _
  rw [hRest] at hLength
  simp only [List.length_append, List.length_cons] at hLength ⊢
  omega

/-- The key of a line opens the block mapping, if there is none yet. -/
theorem indentTo_behindName (opened : Bool) (tokens : List Token) (name more : List Char)
    (hColumn : c.column = 0) :
    ({ behindName opened tokens c name more with
        tokens := .scalar .plain name :: .key :: tokens } : Layout).indentTo c.column
          tokens.length .blockMapping =
      { behindName opened tokens c name more with
        tokens := .scalar .plain name :: .key :: (opening opened ++ tokens)
        indent := 0
        outer := [-1] } := by
  have hLater : tokens.length + 1 + 1 - tokens.length = 2 := by omega
  cases opened <;>
    simp [indentTo, insertAt, inFlow, behindName, lineStart, hColumn, hLater, opening]

/-- At the colon behind a name its key token is put in front of it, and in front of that the start
of the block mapping, if there is none yet. -/
theorem readAll?_colon (hReach : utf8Len name ≤ keyReach) (hColumn : c.column = 0)
    (hNil : name ≠ []) :
    (behindName opened tokens c name (':' :: ' ' :: more)).readAll? =
      (inLine (.value :: .scalar .plain name :: .key :: (opening opened ++ tokens))
        (c.behind (name ++ [':']) (' ' :: more))).readAll? := by
  let s := behindName opened tokens c name (':' :: ' ' :: more)
  have hKept : ∀ k ∈ s.candidate, KeyCandidate.isStale k s.cursor = false := by
    intro k hKey
    obtain rfl := Option.some.inj hKey
    simpa [KeyCandidate.isStale, s, behindName, lineStart, Cursor.behind] using hReach
  have hMarker : s.cursor.atMarker = false :=
    Cursor.atMarker_of_column (Cursor.column_behind (.inr hNil))
  have hNext : s.cursor.next = c.behind (name ++ [':']) (' ' :: more) := by
    rw [Cursor.next_eq_behind rfl rfl]
    exact Cursor.behind_behind c name [':'] _ _
  have hSkip : s.skipSpacing = s := skipSpacing_of_solid fun d hMem => Option.some.inj hMem ▸ rfl
  have hRead : s.readToken? ':' (' ' :: more) = some
      (inLine (.value :: .scalar .plain name :: .key :: (opening opened ++ tokens))
        s.cursor.next) := by
    have hValue : s.readToken? ':' (' ' :: more) = s.readValue? := by
      simp [readToken?, hMarker, atSpacing, isSpacing, isBlank]
    rw [hValue]
    exact readValue?_of_candidate (s := s) rfl rfl rfl
      (indentTo_behindName opened tokens name _ hColumn)
  rw [← hNext]
  refine readAll?_of_kept hSkip rfl hKept (indent_lineStart opened tokens c) rfl hRead ?_
  rw [hNext]
  exact Nat.lt_succ_self _

/-! ## Values -/

/-- On a line the token behind a space is read. -/
theorem readAll?_inLine (hRest : c.rest = ' ' :: ch :: rest) (hColumn : c.column ≠ 0)
    (hSolid : isSolid ch = true) (hRead : (inLine tokens c.next).readToken? ch rest = some t)
    (hLength : t.cursor.rest.length ≤ rest.length) : (inLine tokens c).readAll? = t.readAll? := by
  have hSkip : (inLine tokens c).skipSpacing = inLine tokens c.next :=
    skipSpacing_of_space (s := inLine tokens c) hRest hColumn hSolid
  have hNext : c.next.rest = ch :: rest := by
    rw [Cursor.next_eq_behind hRest rfl]
    rfl
  refine readAll?_of_kept hSkip rfl (kept_of_none rfl) (Int.le_refl 0) hNext hRead ?_
  show _ < c.rest.length
  rw [hRest]
  exact Nat.lt_succ_of_lt (Nat.lt_succ_of_le hLength)

theorem readToken?_of_quote (hMarker : s.cursor.atMarker = false) :
    s.readToken? '"' rest = s.readQuotedToken? false := by
  simp [readToken?, hMarker]

/-- A string is read up to the end of its line, and the break behind it is skipped. -/
theorem exists_readAll?_string {cs : List Char} (hColumn : c.column ≠ 0)
    (hRest : c.rest = ' ' :: (quoteChars cs ++ '\n' :: text)) (hLine : OnOneLine (quoteChars cs))
    (hSolid : ∀ ch ∈ text.head?, isSolid ch = true) :
    ∃ t, Begins t true (.scalar .doubleQuoted cs :: tokens) text ∧
      (inLine tokens c).readAll? = t.readAll? := by
  have hNext : c.next = c.behind [' '] (quoteChars cs ++ '\n' :: text) :=
    Cursor.next_eq_behind hRest rfl
  have hPast : c.next.column ≠ 0 := by
    rw [hNext]
    exact Cursor.column_behind (.inl hColumn)
  have hMarker := Cursor.atMarker_of_column hPast
  let d := c.next.behind (quoteChars cs) ('\n' :: text)
  have hRead : (inLine tokens c.next).readToken? '"' (cs.flatMap escape ++ ['"'] ++ '\n' :: text) =
      some (inLine (.scalar .doubleQuoted cs :: tokens) d) := by
    have hQuoted := readQuoted_of_quoteChars (congrArg Cursor.rest hNext) hLine
    rw [readToken?_of_quote hMarker, readQuotedToken?]
    show (readQuoted false c.next.next).bind _ = _
    rw [hQuoted]
    rfl
  have hBehind : d.column ≠ 0 := Cursor.column_behind (.inl hPast)
  have hSkip := skipSpacing_of_break (s := inLine (.scalar .doubleQuoted cs :: tokens) d) rfl
    hBehind rfl hSolid
  have hLength : ('\n' :: text).length ≤ (cs.flatMap escape ++ ['"'] ++ '\n' :: text).length := by
    rw [List.length_append]
    exact Nat.le_add_left _ _
  exact ⟨_, ⟨d.next, hSkip, rfl, rfl, Nat.le_succ _⟩,
    readAll?_inLine hRest hColumn rfl hRead hLength⟩

/-- A word is read up to the end of its line, and with it the break. -/
theorem exists_readAll?_word (hColumn : c.column ≠ 0)
    (hRest : c.rest = ' ' :: (word ++ '\n' :: text)) (hNil : word ≠ [])
    (hWord : ∀ ch ∈ word, isWordChar ch = true) (hMinus : word ≠ ['-'])
    (hSolid : ∀ ch ∈ text.head?, isSolid ch = true) :
    ∃ t, Begins t true (.scalar .plain word :: tokens) text ∧
      (inLine tokens c).readAll? = t.readAll? := by
  obtain ⟨ch, tail, rfl⟩ := List.exists_cons_of_ne_nil hNil
  have hNext : c.next = c.behind [' '] (ch :: tail ++ '\n' :: text) :=
    Cursor.next_eq_behind hRest rfl
  have hMarker : c.next.atMarker = false := by
    rw [hNext]
    exact Cursor.atMarker_of_column (Cursor.column_behind (.inl hColumn))
  have hDash : ch = '-' → atSpacing (tail ++ '\n' :: text) = false := by
    rintro rfl
    cases tail with
    | nil => exact absurd rfl hMinus
    | cons d tail => exact isSpacing_of_isWordChar (hWord d (by simp))
  have hSpacing : text.takeWhile isSpacing = [] := by
    cases text with
    | nil => rfl
    | cons d text =>
        have hFirst := hSolid d rfl
        simp only [isSolid, Bool.and_eq_true, Bool.not_eq_true'] at hFirst
        exact List.takeWhile_cons_of_neg (by simp [hFirst])
  let d := (c.next.behind (ch :: tail) ('\n' :: text)).next
  have hRead : (inLine tokens c.next).readToken? ch (tail ++ '\n' :: text) =
      some (lineStart true (.scalar .plain (ch :: tail) :: tokens) d) := by
    refine (readToken?_of_word hMarker (hWord ch List.mem_cons_self) hDash).trans ?_
    have hPlain : readPlain false (0 + 1) [] false c.next = some ⟨ch :: tail, true, d⟩ :=
      readPlain_of_line hMarker (congrArg Cursor.rest hNext) hNil hWord hSpacing (by decide)
    rw [readPlainToken?]
    show (readPlain false (0 + 1) [] false c.next).bind _ = _
    rw [hPlain]
    rfl
  have hSkip := skipSpacing_of_solid (s := lineStart true (.scalar .plain (ch :: tail) :: tokens) d)
    hSolid
  have hLength : text.length ≤ (tail ++ '\n' :: text).length := by
    simp only [List.length_append, List.length_cons]
    omega
  exact ⟨_, ⟨d, hSkip, rfl, rfl, Nat.le_refl _⟩,
    readAll?_inLine hRest hColumn (isSolid_of_isWordChar (hWord ch List.mem_cons_self)) hRead
      hLength⟩

/-- A written number is more than its sign. -/
theorem ne_minus_of_isNumber (h : IsNumber word) : word ≠ ['-'] := by
  cases h with
  | @intro sign whole fraction exponent hSign hWhole =>
      obtain ⟨hNil, hDigits⟩ := hWhole.isRow
      obtain ⟨d, ds, rfl⟩ := List.exists_cons_of_ne_nil hNil
      have hDigit := hDigits d List.mem_cons_self
      rcases hSign with rfl | rfl
      · intro hSame
        obtain rfl : d = '-' := (List.cons.inj hSame).1
        cases hDigit
      · intro hSame
        cases (List.cons.inj hSame).2

/-- **A value without brackets is read up to the end of its line.** -/
theorem exists_readAll?_value {v : Value} (hScalar : v.isScalar = true)
    (hText : fitsLine v.json.toList = true) (hColumn : c.column ≠ 0)
    (hRest : c.rest = ' ' :: (v.json.toList ++ '\n' :: text))
    (hSolid : ∀ ch ∈ text.head?, isSolid ch = true) :
    ∃ t, Begins t true (v.flowTokens.reverse ++ tokens) text ∧
      (inLine tokens c).readAll? = t.readAll? := by
  cases v with
  | string s =>
      have hQuote : (Value.string s).json.toList = quoteChars s.toList := by
        rw [← Value.flatten_tokens]
        exact List.append_nil _
      rw [hQuote] at hRest hText
      exact exists_readAll?_string hColumn hRest (fitsLine_iff.mp hText).2 hSolid
  | number x =>
      have hNumber := isNumber_json x
      obtain ⟨ch, rest, hCons, -⟩ := hNumber.exists_cons
      exact exists_readAll?_word hColumn hRest (hCons ▸ List.cons_ne_nil ch rest)
        (isWordChar_of_isNumber hNumber) (ne_minus_of_isNumber hNumber) hSolid
  | null => exact exists_readAll?_word hColumn hRest nofun (List.all_eq_true.mp rfl) nofun hSolid
  | bool b =>
      cases b <;>
        exact exists_readAll?_word hColumn hRest nofun (List.all_eq_true.mp rfl) nofun hSolid
  | array items => cases hScalar
  | object members => cases hScalar

/-! ## Lines -/

/-- **Reading the tokens of a line leads to the start of the next one.** -/
theorem exists_readAll?_line {m : String × Value} (hEntry : Value.IsEntry m)
    (hBegin : Begins s opened tokens (Value.line m ++ text))
    (hSolid : ∀ ch ∈ text.head?, isSolid ch = true) :
    ∃ t, Begins t true ((Value.lineTokens m).reverse ++ (opening opened ++ tokens)) text ∧
      s.readAll? = t.readAll? := by
  obtain ⟨c, hSkip, hRest, hColumn, hLength⟩ := hBegin
  have hText : Value.line m ++ text =
      m.1.toList ++ ':' :: ' ' :: (m.2.json.toList ++ '\n' :: text) := by
    simp [Value.line]
  rw [hText] at hRest hLength
  have hName := readAll?_name hSkip hRest hColumn (hRest ▸ hLength) hEntry.name.nonempty
    hEntry.name.word
  let read := .value :: .scalar .plain m.1.toList :: .key :: (opening opened ++ tokens)
  let d := c.behind (m.1.toList ++ [':']) (' ' :: (m.2.json.toList ++ '\n' :: text))
  have hColon := hName.trans (readAll?_colon hEntry.name.reach hColumn hEntry.name.nonempty)
  have hPast : d.column ≠ 0 := Cursor.column_behind (.inr (by simp))
  obtain ⟨t, hBegins, hValue⟩ : ∃ t, Begins t true (m.2.flowTokens.reverse ++ read) text ∧
      (inLine read d).readAll? = t.readAll? :=
    exists_readAll?_value hEntry.scalar hEntry.text hPast rfl hSolid
  have hTokens : (Value.lineTokens m).reverse ++ (opening opened ++ tokens) =
      m.2.flowTokens.reverse ++ read := by
    simp [Value.lineTokens, read]
  rw [hTokens]
  exact ⟨t, hBegins, hColon.trans hValue⟩

theorem isSolid_head?_lines {members : List (String × Value)}
    (h : ∀ m ∈ members, Value.IsEntry m) :
    ∀ ch ∈ (members.flatMap Value.line).head?, isSolid ch = true := by
  cases members with
  | nil => nofun
  | cons m rest =>
      have hEntry := h m List.mem_cons_self
      obtain ⟨ch, tail, hName⟩ := List.exists_cons_of_ne_nil hEntry.name.nonempty
      intro d hMem
      rw [List.flatMap_cons, Value.line, hName] at hMem
      obtain rfl := Option.some.inj hMem
      exact isSolid_of_isWordChar (hEntry.name.word _ (hName ▸ List.mem_cons_self))

/-- At the end of the lines the mapping ends. -/
theorem Begins.readAll?_end (h : Begins s opened tokens []) :
    s.readAll? = some (.streamEnd :: (closing opened ++ tokens)) := by
  obtain ⟨c, hSkip, hRest, -, -⟩ := h
  have hLasting : (lineStart opened tokens c).Lasting := lasting_of_kept rfl (kept_of_none rfl)
  have hIndent : (lineStart opened tokens c).unindentTo c.column = lineStart opened tokens c :=
    unindentTo_of_indent (indent_lineStart opened tokens c) c.column
  rw [readAll?_of_end hSkip hLasting hIndent hRest]
  cases opened <;> rfl

/-- **Reading lines inside of a mapping reads their entries**, and ends the mapping. -/
theorem readAll?_lines {members : List (String × Value)} (hEntries : ∀ m ∈ members, Value.IsEntry m)
    (h : Begins s true tokens (members.flatMap Value.line)) :
    s.readAll? =
      some (.streamEnd :: .blockEnd :: ((members.flatMap Value.lineTokens).reverse ++ tokens)) := by
  induction members generalizing s tokens with
  | nil => exact h.readAll?_end
  | cons m rest ih =>
      have hRest : ∀ m ∈ rest, Value.IsEntry m := fun n hMem =>
        hEntries n (List.mem_cons_of_mem m hMem)
      obtain ⟨t, hBegins, hRead⟩ := exists_readAll?_line (hEntries m List.mem_cons_self) h
        (isSolid_head?_lines hRest)
      rw [hRead, ih hRest hBegins]
      simp [opening]

end Layout

/-! ## Whole texts -/

theorem isAllowed_line {m : String × Value} (h : Value.IsEntry m) :
    (Value.line m).all isAllowed = true := by
  have hName : m.1.toList.all isAllowed = true :=
    List.all_eq_true.mpr fun ch hMem => isAllowed_of_isWordChar (h.name.word ch hMem)
  have hMarks : isAllowed ':' = true ∧ isAllowed ' ' = true ∧ isAllowed '\n' = true := by decide
  simp [Value.line, List.all_append, hName, (fitsLine_iff.mp h.text).1, hMarks]

/-- **The tokens of the lines of a mapping.** -/
theorem tokens?_lines {m : String × Value} {rest : List (String × Value)}
    (hEntries : ∀ n ∈ m :: rest, Value.IsEntry n) :
    tokens? (Value.lines (m :: rest)) = some
      (.blockMapping :: ((m :: rest).flatMap Value.lineTokens ++ [.blockEnd, .streamEnd])) := by
  have hRest : ∀ m ∈ rest, Value.IsEntry m := fun n hMem =>
    hEntries n (List.mem_cons_of_mem m hMem)
  have hAllowed : ((m :: rest).flatMap Value.line).all isAllowed = true := by
    rw [List.all_flatMap, List.all_eq_true]
    exact fun n hMem => isAllowed_line (hEntries n hMem)
  have hSkip := Layout.skipSpacing_of_solid (s := Layout.start ((m :: rest).flatMap Value.line))
    (Layout.isSolid_head?_lines hEntries)
  have hBegin : (Layout.start ((m :: rest).flatMap Value.line)).Begins false []
      (Value.line m ++ rest.flatMap Value.line) := ⟨_, hSkip, rfl, rfl, Nat.le_refl _⟩
  obtain ⟨t, hBegins, hRead⟩ := Layout.exists_readAll?_line (hEntries m List.mem_cons_self) hBegin
    (Layout.isSolid_head?_lines hRest)
  rw [tokens?, Value.lines, String.toList_ofList, if_pos hAllowed, hRead,
    Layout.readAll?_lines hRest hBegins]
  simp [Layout.opening]

/-! ## Pairs -/

variable {handles : Handles} {rest : List Token} {d : Nat}

/-- A pair of a block mapping, read in front of the others. -/
theorem readPairs_of_line (name : List Char) (v : Value) {value : Node} {behind : List Token}
    (h : readNode handles true true d (v.flowTokens ++ rest) = some (value, behind)) :
    readPairs handles (d + 3)
        (.key :: .scalar .plain name :: .value :: (v.flowTokens ++ rest)) =
      (readPairs handles (d + 2) behind).map fun r =>
        ((.scalar {} .plain name, value) :: r.1, r.2) := by
  have hValue : readValue handles true Token.endsBlockNode (d + 2)
      (.value :: (v.flowTokens ++ rest)) = some (value, behind) :=
    (readOptional_of_value v (.inr rfl)).trans h
  have hKey : readOptional handles true true Token.endsBlockNode (d + 2)
      (.scalar .plain name :: .value :: (v.flowTokens ++ rest)) =
        some (.scalar {} .plain name, .value :: (v.flowTokens ++ rest)) := rfl
  rw [readPairs, hKey]
  dsimp only
  rw [hValue]

/-- The pairs of the tokens of lines. -/
theorem readPairs_lineTokens (members : List (String × Value)) {depth : Nat}
    (h : 4 * (members.flatMap Value.lineTokens ++ .blockEnd :: rest).length + 4 ≤ depth) :
    readPairs handles depth (members.flatMap Value.lineTokens ++ .blockEnd :: rest) =
      some (Value.memberPairs .plain members, rest) := by
  induction members generalizing depth with
  | nil =>
      obtain ⟨d, rfl⟩ : ∃ d, depth = d + 1 := ⟨depth - 1, by omega⟩
      rfl
  | cons m members ih =>
      have hTokens : (m :: members).flatMap Value.lineTokens ++ .blockEnd :: rest =
          .key :: .scalar .plain m.1.toList :: .value ::
            (m.2.flowTokens ++ (members.flatMap Value.lineTokens ++ .blockEnd :: rest)) := by
        simp [Value.lineTokens]
      rw [hTokens] at h ⊢
      simp only [List.length_cons] at h
      rw [List.length_append] at h
      obtain ⟨d, rfl⟩ : ∃ d, depth = d + 3 := ⟨depth - 3, by omega⟩
      have hNode : readNode handles true true d
          (m.2.flowTokens ++ (members.flatMap Value.lineTokens ++ .blockEnd :: rest)) =
            some (m.2.node, members.flatMap Value.lineTokens ++ .blockEnd :: rest) :=
        readNode_flowTokens m.2 (by rw [List.length_append]; omega)
      rw [readPairs_of_line m.1.toList m.2 hNode, ih (by omega)]
      rfl

/-- **Lines are a mapping of their entries.** -/
theorem mapping?_lines {members : List (String × Value)}
    (hEntries : ∀ m ∈ members, Value.IsEntry m) :
    mapping? (Value.lines members) = some (Value.memberPairs .plain members) := by
  cases members with
  | nil =>
      have hSkip := Layout.skipSpacing_of_solid (s := Layout.start []) nofun
      have hBegin : (Layout.start []).Begins false [] [] := ⟨_, hSkip, rfl, rfl, Nat.le_refl _⟩
      have hTokens : tokens? "" = some [.streamEnd] := by
        rw [tokens?]
        show (Layout.start []).readAll?.map List.reverse = _
        rw [hBegin.readAll?_end]
        rfl
      show mapping? "" = some []
      rw [mapping?, document?, hTokens]
      rfl
  | cons m rest =>
      let tokens := (m :: rest).flatMap Value.lineTokens ++ [.blockEnd, .streamEnd]
      have hContent : readContent [] (.blockMapping :: tokens) =
          some (.mapping {} (Value.memberPairs .plain (m :: rest)), [.streamEnd]) := by
        show (readPairs _ (4 * (tokens.length + 1) + 3) tokens).map _ = _
        rw [readPairs_lineTokens (m :: rest) (by simp only [tokens]; omega)]
        rfl
      refine mapping?_of_document ?_
      rw [document?, tokens?_lines hEntries]
      show (readContent [] (.blockMapping :: tokens)).bind _ = _
      rw [hContent]
      rfl

end Yaml

end Stencil
