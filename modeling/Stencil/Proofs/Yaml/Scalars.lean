import Mathlib.Data.String.Basic
import Stencil.Json.Quoted
import Stencil.Yaml.Scalar.Plain
import Stencil.Yaml.Scalar.Quoted

/-!
# Scalars of JSON texts

What JSON writes for a value without brackets is a YAML scalar. A string that is quoted for JSON is
read as that string between double quotes, as long as nothing in it ends a line: every escape that
JSON writes is one of those that are read here, and stands for the same character. Reading goes word
by word, and the gaps between words are kept since they hold nothing but spaces. All other values
are single words, which are plain scalars up to the comma or the bracket behind them, or up to the
end of their line.

## Main results

* `Cursor.advance_length` — where a cursor stands behind a word without line breaks.
* `readQuoted_of_rest` — a quoted string is read back.
* `readPlain_of_rest`, `readPlain_of_line` — a word is read as it is.
-/

namespace Stencil.Yaml

open Json (escape escapeCode isPlain quoteChars)
open String (utf8Len)

/-! ## Words on one line -/

/-- No character ends a line. -/
def OnOneLine (cs : List Char) : Prop := ∀ c ∈ cs, isBreak c = false

/-- Whether all characters may stand on a line of a text. -/
def fitsLine (cs : List Char) : Bool := cs.all fun c => isAllowed c && !isBreak c

theorem fitsLine_iff {cs : List Char} :
    fitsLine cs = true ↔ cs.all isAllowed = true ∧ OnOneLine cs := by
  simp [fitsLine, OnOneLine, List.all_eq_true, forall_and]

theorem fitsLine_flatten (words : List (List Char)) :
    fitsLine words.flatten = words.all fitsLine := List.all_flatten

theorem OnOneLine.left {cs ds : List Char} (h : OnOneLine (cs ++ ds)) : OnOneLine cs :=
  fun c hMem => h c (List.mem_append_left ds hMem)

theorem OnOneLine.right {cs ds : List Char} (h : OnOneLine (cs ++ ds)) : OnOneLine ds :=
  fun c hMem => h c (List.mem_append_right cs hMem)

namespace Cursor

/-- The place behind a word on the line of a cursor, in front of `rest`. -/
def behind (c : Cursor) (word rest : List Char) : Cursor :=
  ⟨rest, c.offset + utf8Len word, c.line, c.column + word.length⟩

variable {c : Cursor} {word ahead : List Char}

/-- A word is passed without leaving the line. -/
theorem advance_length (h : c.rest = word ++ ahead) (hLine : OnOneLine word) :
    c.advance word.length = c.behind word ahead := by
  induction word generalizing c with
  | nil =>
      rw [← show c.rest = ahead from h]
      rfl
  | cons ch word ih =>
      have hNext : c.next = ⟨word ++ ahead, c.offset + ch.utf8Size, c.line, c.column + 1⟩ := by
        rw [next, h, List.cons_append]
        dsimp only
        rw [if_neg (by simp [hLine ch List.mem_cons_self])]
      have hRest : c.next.rest = word ++ ahead := by rw [hNext]
      rw [List.length_cons, advance, ih hRest fun d hMem => hLine d (List.mem_cons_of_mem ch hMem),
        hNext]
      simp only [behind, utf8Len, List.length_cons, mk.injEq, true_and]
      omega

@[simp] theorem rest_behind (c : Cursor) (word ahead : List Char) :
    (c.behind word ahead).rest = ahead := rfl

/-- Behind a word a line goes on. -/
theorem column_behind (h : c.column ≠ 0 ∨ word ≠ []) : (c.behind word ahead).column ≠ 0 := by
  have hWord : word ≠ [] → word.length ≠ 0 := mt List.length_eq_zero_iff.mp
  show c.column + word.length ≠ 0
  rcases h with hColumn | hNil
  · omega
  · have hLength := hWord hNil
    omega

theorem atMarker_of_column (h : c.column ≠ 0) : c.atMarker = false := by
  simp [atMarker, h]

theorem behind_behind (c : Cursor) (word word' between ahead : List Char) :
    (c.behind word between).behind word' ahead = c.behind (word ++ word') ahead := by
  simp only [behind, String.utf8Len_append, List.length_append, Nat.add_assoc]

/-- Passing one character of the line. -/
theorem next_eq_behind {ch : Char} (h : c.rest = ch :: ahead) (hLine : isBreak ch = false) :
    c.next = c.behind [ch] ahead := by
  have hWord : OnOneLine [ch] := fun _ hMem => List.eq_of_mem_singleton hMem ▸ hLine
  exact advance_length h hWord

end Cursor

/-! ## Escapes -/

variable {ch : Char} {rest : List Char}

/-- The code of a character, in four digits, stands for the character. -/
theorem backslash?_escapeCode (h : ch.toNat < 0x20) :
    backslash? ('u' :: '0' :: '0' :: Nat.digitChar (ch.toNat / 16) ::
      Nat.digitChar (ch.toNat % 16) :: rest) = some (.char ch 5) := by
  have hZero : Text.hexDigit? '0' = some 0 := by decide
  have hHigh := Text.hexDigit?_digitChar (show ch.toNat / 16 < 16 by omega)
  have hLow := Text.hexDigit?_digitChar (show ch.toNat % 16 < 16 by omega)
  have hValue : Text.hexValue? ['0', '0', Nat.digitChar (ch.toNat / 16),
      Nat.digitChar (ch.toNat % 16)] = some ch.toNat := by
    simp [Text.hexValue?, hZero, hHigh, hLow]
    omega
  have hCode : charOfCode? ch.toNat = some ch := dif_pos ch.valid
  simp [backslash?, escape?, codeLength?, isBreak, hValue, hCode]

/-- Every escape that is written is one that is read. -/
theorem backslash?_escape (h : ¬ isPlain ch) (rest : List Char) :
    ∃ tail, escape ch = '\\' :: tail ∧ backslash? (tail ++ rest) = some (.char ch tail.length) := by
  unfold escape
  repeat' split
  all_goals try (subst_vars; exact ⟨_, rfl, rfl⟩)
  · rename_i hControl
    exact ⟨_, rfl, backslash?_escapeCode hControl⟩
  · rename_i hQuote hBackslash _ _ _ _ _ hControl
    simp [isPlain, hQuote, hBackslash] at h
    omega

/-! ## Words between double quotes -/

/-- Among the characters that stand for themselves only the space is spacing. -/
theorem isSpacing_of_isPlain (hLine : isBreak ch = false) (hSpace : ch ≠ ' ')
    (hPlain : isPlain ch) : isSpacing ch = false := by
  have hTab : ch ≠ '\t' := by
    rintro rfl
    exact absurd hPlain (by decide)
  simp [isSpacing, isBlank, hSpace, hTab, hLine]

/-- A written character is read back, whether it is escaped or stands for itself. -/
theorem doubleQuotedWord_escape (hLine : OnOneLine (escape ch)) (hSpace : ch ≠ ' ') :
    doubleQuotedWord (escape ch ++ rest) =
      (doubleQuotedWord rest).map (·.cons ch (escape ch).length) := by
  by_cases hPlain : isPlain ch
  · rw [(Json.escape_eq_self_iff ch).mpr hPlain] at hLine ⊢
    have hSpacing := isSpacing_of_isPlain (hLine ch List.mem_cons_self) hSpace hPlain
    simp only [isPlain, Bool.and_eq_true, decide_eq_true_eq] at hPlain
    rw [List.singleton_append, doubleQuotedWord, if_neg (by simp [hSpacing, hPlain.1.1]),
      if_pos hPlain.1.2]
    rfl
  · obtain ⟨tail, hEscape, hRead⟩ := backslash?_escape hPlain rest
    rw [hEscape, List.cons_append, doubleQuotedWord, if_neg (by decide), if_neg (by decide), hRead]
    dsimp only
    rw [List.drop_left]
    rfl

/-- The text goes on with a space or the closing quote. -/
def EndsWord (cs : List Char) : Prop := cs.head? = some ' ' ∨ cs.head? = some '"'

/-- **A word is read back** up to the space or the quote behind it. -/
theorem doubleQuotedWord_flatMap {word : List Char} (hLine : OnOneLine (word.flatMap escape))
    (hSpace : ' ' ∉ word) (hEnd : EndsWord rest) :
    doubleQuotedWord (word.flatMap escape ++ rest) =
      some ⟨word, (word.flatMap escape).length, false⟩ := by
  induction word with
  | nil =>
      cases rest with
      | nil => rcases hEnd with hEnd | hEnd <;> cases hEnd
      | cons d rest =>
          rw [List.flatMap_nil, List.nil_append, doubleQuotedWord, if_pos]
          · rfl
          · rcases hEnd with hEnd | hEnd <;> obtain rfl := Option.some.inj hEnd
            · exact .inl rfl
            · exact .inr rfl
  | cons c word ih =>
      rw [List.flatMap_cons] at hLine
      rw [List.flatMap_cons, List.append_assoc, doubleQuotedWord_escape hLine.left
        (fun hSame => hSpace (hSame ▸ List.mem_cons_self)),
        ih hLine.right fun hMem => hSpace (List.mem_cons_of_mem c hMem)]
      simp [QuotedWord.cons, Nat.add_comm]

/-! ## Gaps and whole strings -/

/-- Spaces stand for themselves. -/
theorem flatMap_escape_of_spaces {gap : List Char} (h : ∀ d ∈ gap, d = ' ') :
    gap.flatMap escape = gap := by
  induction gap with
  | nil => rfl
  | cons d gap ih =>
      obtain rfl := h d List.mem_cons_self
      rw [List.flatMap_cons, ih fun d hMem => h d (List.mem_cons_of_mem _ hMem)]
      rfl

/-- Behind a gap there is no spacing. -/
theorem takeWhile_isSpacing_eq_nil {more : List Char} (hLine : OnOneLine (more.flatMap escape))
    (hSpace : more.head? ≠ some ' ') :
    (more.flatMap escape ++ '"' :: rest).takeWhile isSpacing = [] := by
  cases more with
  | nil => exact List.takeWhile_cons_of_neg (by decide)
  | cons ch more =>
      have hOther : ch ≠ ' ' := fun hSame => hSpace (congrArg some hSame)
      rw [List.flatMap_cons] at hLine ⊢
      by_cases hPlain : isPlain ch
      · rw [(Json.escape_eq_self_iff ch).mpr hPlain] at hLine ⊢
        have hSpacing := isSpacing_of_isPlain (hLine ch List.mem_cons_self) hOther hPlain
        exact List.takeWhile_cons_of_neg (by simp [hSpacing])
      · obtain ⟨tail, hEscape, -⟩ := backslash?_escape hPlain []
        rw [hEscape]
        exact List.takeWhile_cons_of_neg (by decide)

/-- A text without spaces is one word; in any other one a word and a gap stand in front. -/
theorem exists_word (cs : List Char) :
    ' ' ∉ cs ∨ ∃ word gap more, cs = word ++ (gap ++ more) ∧ ' ' ∉ word ∧ gap ≠ [] ∧
      (∀ d ∈ gap, d = ' ') ∧ more.head? ≠ some ' ' := by
  let tail := cs.dropWhile (· != ' ')
  have hParts : cs.takeWhile (· != ' ') ++
      (tail.takeWhile (· == ' ') ++ tail.dropWhile (· == ' ')) = cs := by
    rw [List.takeWhile_append_dropWhile, List.takeWhile_append_dropWhile]
  have hWord : ' ' ∉ cs.takeWhile (· != ' ') := fun hMem => by
    simpa using List.all_eq_true.mp List.all_takeWhile _ hMem
  have hSpaces : ∀ d ∈ tail.takeWhile (· == ' '), d = ' ' := fun d hMem => by
    simpa using List.all_eq_true.mp List.all_takeWhile d hMem
  have hTail := List.head?_dropWhile_not (· != ' ') cs
  have hMore := List.head?_dropWhile_not (· == ' ') tail
  cases hCase : tail with
  | nil =>
      left
      rw [hCase] at hParts
      rwa [← hParts, List.takeWhile_nil, List.dropWhile_nil, List.append_nil, List.append_nil]
  | cons d rest =>
      obtain rfl : d = ' ' := by simpa [tail, hCase] using hTail
      refine .inr ⟨_, _, _, hParts.symm, hWord, ?_, hSpaces, ?_⟩
      · simp [hCase]
      · intro hHead
        simp [hHead] at hMore

variable {c : Cursor} {cs : List Char}

/-- Reading a string of more than one word: the first word and the gap behind it are read, and then
the rest is. -/
theorem readQuoted_of_gap {word gap ahead : List Char} (hColumn : c.column ≠ 0)
    (h : c.rest = word.flatMap escape ++ (gap ++ ahead)) (hLine : OnOneLine (word.flatMap escape))
    (hWord : ' ' ∉ word) (hGap : gap ≠ []) (hSpaces : ∀ d ∈ gap, d = ' ')
    (hAhead : ahead.takeWhile isSpacing = []) :
    readQuoted false c = (readQuoted false (c.behind (word.flatMap escape ++ gap) ahead)).map
      fun r => (word ++ gap ++ r.1, r.2) := by
  have hFirst : (gap ++ ahead).head? = some ' ' := by
    cases gap with
    | nil => exact absurd rfl hGap
    | cons d gap => exact congrArg some (hSpaces d List.mem_cons_self)
  have hGapLine : ∀ d ∈ gap, isBreak d = false := fun d hMem => hSpaces d hMem ▸ rfl
  have hSpacing : (gap ++ ahead).takeWhile isSpacing = gap := by
    rw [List.takeWhile_append_of_pos (fun d hMem => hSpaces d hMem ▸ rfl), hAhead,
      List.append_nil]
  have hFold : foldGap gap = gap := foldGap_of_no_break (by simpa using hGapLine)
  have hRead := doubleQuotedWord_flatMap hLine hWord (.inl hFirst)
  have hBehindWord := Cursor.advance_length h hLine
  have hBehindGap : (c.behind (word.flatMap escape) (gap ++ ahead)).advance gap.length =
      c.behind (word.flatMap escape ++ gap) ahead := by
    rw [Cursor.advance_length rfl hGapLine, Cursor.behind_behind]
  have hLt : ahead.length < c.rest.length := by
    have hPos := List.length_pos_of_ne_nil hGap
    simp only [h, List.length_append]
    omega
  have hMarker : (c.atMarker || c.rest.isEmpty) = false := by
    simp [Cursor.atMarker_of_column hColumn, h, hGap]
  rw [← h] at hRead
  rw [readQuoted, hMarker]
  simp only [Bool.false_eq_true, if_false, hRead, hBehindWord, Cursor.sees, Cursor.rest_behind]
  rw [hFirst, if_neg (by decide), hSpacing, hBehindGap, hFold]
  exact dif_pos hLt

/-- **A quoted string is read back**, up to and including its closing quote. -/
theorem readQuoted_of_rest (hColumn : c.column ≠ 0)
    (h : c.rest = cs.flatMap escape ++ '"' :: rest) (hLine : OnOneLine (cs.flatMap escape)) :
    readQuoted false c = some (cs, c.behind (cs.flatMap escape ++ ['"']) rest) := by
  -- The string behind the first gap is shorter, and again one that is quoted.
  induction hLength : cs.length using Nat.strongRecOn generalizing c cs with
  | ind n ih =>
      rcases exists_word cs with hWord | ⟨word, gap, more, rfl, hWord, hGap, hSpaces, hHead⟩
      · have hEnd : EndsWord ('"' :: rest) := .inr rfl
        have hRead := doubleQuotedWord_flatMap hLine hWord hEnd
        have hMarker : (c.atMarker || c.rest.isEmpty) = false := by
          simp [Cursor.atMarker_of_column hColumn, h]
        have hNext : (c.behind (cs.flatMap escape) ('"' :: rest)).next =
            c.behind (cs.flatMap escape ++ ['"']) rest := by
          rw [Cursor.next_eq_behind rfl rfl, Cursor.behind_behind]
        rw [← h] at hRead
        rw [readQuoted, hMarker]
        simp only [Bool.false_eq_true, if_false, hRead, Cursor.advance_length h hLine]
        rw [if_pos (by rfl), hNext]
      · rw [List.flatMap_append, List.flatMap_append, flatMap_escape_of_spaces hSpaces] at h hLine
        rw [List.append_assoc, List.append_assoc] at h
        have hMore := hLine.right.right
        have hLt : more.length < n := by
          have hPos := List.length_pos_of_ne_nil hGap
          simp only [List.length_append] at hLength
          omega
        have hBehind : (c.behind (word.flatMap escape ++ gap)
            (more.flatMap escape ++ '"' :: rest)).column ≠ 0 := by
          simp [Cursor.behind, hColumn]
        rw [readQuoted_of_gap hColumn h hLine.left hWord hGap hSpaces
          (takeWhile_isSpacing_eq_nil hMore hHead), ih _ hLt hBehind rfl hMore rfl,
          Cursor.behind_behind]
        simp [flatMap_escape_of_spaces hSpaces]

/-- A quoted string is read from its opening quote on. -/
theorem readQuoted_of_quoteChars (h : c.rest = quoteChars cs ++ rest)
    (hLine : OnOneLine (quoteChars cs)) :
    readQuoted false c.next = some (cs, c.behind (quoteChars cs) rest) := by
  have hRest : c.rest = '"' :: (cs.flatMap escape ++ '"' :: rest) := by
    rw [h]
    simp [quoteChars]
  have hInside : OnOneLine (cs.flatMap escape) :=
    OnOneLine.left fun ch hMem => hLine ch (List.mem_cons_of_mem _ hMem)
  have hColumn : (c.behind ['"'] (cs.flatMap escape ++ '"' :: rest)).column ≠ 0 :=
    Nat.succ_ne_zero _
  rw [Cursor.next_eq_behind hRest rfl, readQuoted_of_rest hColumn rfl hInside,
    Cursor.behind_behind]
  rfl

/-! ## Plain words -/

/-- Whether a character may stand in a word: a letter, a digit, a sign, a point or a low line. -/
def isWordChar (c : Char) : Bool := c.isAlphanum || c == '+' || c == '-' || c == '.' || c == '_'

variable {other : Char} {word ahead : List Char} {flow : Bool} {indent : Int}

theorem ne_of_isWordChar (h : isWordChar ch = true) (hOther : isWordChar other = false) :
    ch ≠ other := by
  rintro rfl
  rw [h] at hOther
  cases hOther

theorem isSpacing_of_isWordChar (h : isWordChar ch = true) : isSpacing ch = false := by
  simp (disch := decide) [isSpacing, isBlank, isBreak, ne_of_isWordChar h]

theorem isFlowMark_of_isWordChar (h : isWordChar ch = true) : isFlowMark ch = false := by
  simp (disch := decide) [isFlowMark, ne_of_isWordChar h]

theorem onOneLine_of_isWordChar (hWord : ∀ ch ∈ word, isWordChar ch = true) : OnOneLine word := by
  intro ch hMem
  have hSpacing := isSpacing_of_isWordChar (hWord ch hMem)
  simp only [isSpacing, Bool.or_eq_false_iff] at hSpacing
  exact hSpacing.2

theorem isAllowed_of_isWordChar (h : isWordChar ch = true) : isAllowed ch = true := by
  have hVisible : ' ' ≤ ch ∧ ch ≤ '~' := by
    unfold isWordChar Char.isAlphanum Char.isAlpha Char.isUpper Char.isLower Char.isDigit at h
    simp only [Bool.or_eq_true, Bool.and_eq_true, decide_eq_true_eq, beq_iff_eq] at h
    rw [Char.le_def, Char.le_def]
    rcases h with ((((hLetter | hDigit) | rfl) | rfl) | rfl) | rfl
    · grind
    · grind
    all_goals decide
  simp [isAllowed, hVisible]

/-- Behind the first characters of a word there is no spacing, if there is none behind the word. -/
theorem atSpacing_append (hWord : ∀ ch ∈ word, isWordChar ch = true)
    (h : atSpacing ahead = false) : atSpacing (word ++ ahead) = false := by
  cases word with
  | nil => exact h
  | cons d word => exact isSpacing_of_isWordChar (hWord d List.mem_cons_self)

/-- A word ends in front of what cannot go on with it. -/
theorem plainWord_append (hWord : ∀ ch ∈ word, isWordChar ch = true)
    (hEnd : plainWord flow ahead = some []) : plainWord flow (word ++ ahead) = some word := by
  induction word with
  | nil => exact hEnd
  | cons ch word ih =>
      have hChar := hWord ch List.mem_cons_self
      have hColon : ch ≠ ':' := ne_of_isWordChar hChar (by decide)
      have hRest := ih fun d hMem => hWord d (List.mem_cons_of_mem ch hMem)
      simp [plainWord, isSpacing_of_isWordChar hChar, isFlowMark_of_isWordChar hChar, hColon, hRest]

/-- A word is a plain scalar up to what is no spacing behind it. -/
theorem readPlain_of_rest (hMarker : c.atMarker = false) (h : c.rest = word ++ ahead)
    (hNil : word ≠ []) (hWord : ∀ ch ∈ word, isWordChar ch = true)
    (hEnd : plainWord flow ahead = some []) (hSpacing : ahead.takeWhile isSpacing = []) :
    readPlain flow indent [] false c = some ⟨word, false, c.behind word ahead⟩ := by
  cases word with
  | nil => exact absurd rfl hNil
  | cons first word =>
      have hMark : first ≠ '#' := ne_of_isWordChar (hWord first List.mem_cons_self) (by decide)
      have hStart : (c.atMarker || c.sees '#') = false := by
        simp [hMarker, Cursor.sees, h, hMark]
      have hRead := plainWord_append hWord hEnd
      have hBehind := Cursor.advance_length h (onOneLine_of_isWordChar hWord)
      rw [← h] at hRead
      rw [List.length_cons] at hBehind
      rw [readPlain, hStart, hRead]
      dsimp only
      rw [hBehind, Cursor.rest_behind, hSpacing]
      simp [tabInIndentation, Cursor.advance]

/-- Outside of brackets a word is a plain scalar up to the end of its line, and the break goes with
it, if the next line is not indented. -/
theorem readPlain_of_line (hMarker : c.atMarker = false) (h : c.rest = word ++ '\n' :: ahead)
    (hNil : word ≠ []) (hWord : ∀ ch ∈ word, isWordChar ch = true)
    (hSpacing : ahead.takeWhile isSpacing = []) (hIndent : 0 < indent) :
    readPlain false indent [] false c =
      some ⟨word, true, (c.behind word ('\n' :: ahead)).next⟩ := by
  cases word with
  | nil => exact absurd rfl hNil
  | cons first word =>
      have hMark : first ≠ '#' := ne_of_isWordChar (hWord first List.mem_cons_self) (by decide)
      have hStart : (c.atMarker || c.sees '#') = false := by
        simp [hMarker, Cursor.sees, h, hMark]
      have hEnd : plainWord false ('\n' :: ahead) = some [] := rfl
      have hRead := plainWord_append hWord hEnd
      have hBehind := Cursor.advance_length h (onOneLine_of_isWordChar hWord)
      have hGap : ('\n' :: ahead).takeWhile isSpacing = ['\n'] := by
        rw [List.takeWhile_cons_of_pos (by decide), hSpacing]
      rw [← h] at hRead
      rw [List.length_cons] at hBehind
      rw [readPlain, hStart, hRead]
      dsimp only
      rw [hBehind, Cursor.rest_behind, hGap]
      have hTab : ∀ column, tabInIndentation indent column false ['\n'] = false := fun _ => rfl
      rw [if_neg Bool.false_ne_true, hTab, if_neg Bool.false_ne_true, if_pos (.inr ⟨rfl, hIndent⟩)]
      rfl

/-- The text goes on with a comma or a bracket. -/
def AtFlowMark (cs : List Char) : Prop := ∃ ch rest, cs = ch :: rest ∧ isFlowMark ch = true

theorem isSpacing_of_isFlowMark (h : isFlowMark ch = true) : isSpacing ch = false := by
  simp only [isFlowMark, Bool.or_eq_true, beq_iff_eq] at h
  rcases h with (((rfl | rfl) | rfl) | rfl) | rfl <;> decide

theorem AtFlowMark.plainWord (h : AtFlowMark ahead) : plainWord true ahead = some [] := by
  obtain ⟨ch, rest, rfl, hMark⟩ := h
  have hColon : ch ≠ ':' := by
    rintro rfl
    cases hMark
  simp [Yaml.plainWord, isSpacing_of_isFlowMark hMark, hMark, hColon]

theorem AtFlowMark.takeWhile (h : AtFlowMark ahead) : ahead.takeWhile isSpacing = [] := by
  obtain ⟨ch, rest, rfl, hMark⟩ := h
  exact List.takeWhile_cons_of_neg (by simp [isSpacing_of_isFlowMark hMark])

end Stencil.Yaml
