import Stencil.Json.Skip
import Stencil.Proofs.Json.Floats
import Stencil.Proofs.Json.Tokens

/-!
# Values that are read over

Reading over a value keeps no more than the brackets that are still open, and goes from token to
token. Where it stands is told by what is pending, those brackets and the tokens ahead. From the
start of a value in any layout it comes to what follows the value, whatever brackets are open
around it: nothing of what is nested in the value is left, and nothing behind it is touched.

## Main results

* `leads_value` — reading over a value leads behind it.
* `skipValue_of_spaced` — a value is read over as a whole.
-/

namespace Stencil.Json

open Cursor

/-- Tokens that may stand behind a value: none, or a comma or a closing bracket first. -/
def FollowsValue (tokens : List (List Char)) : Prop :=
  ∀ token ∈ tokens.head?, token = [','] ∨ token = [']'] ∨ token = ['\x7d']

/-- Where reading over stands. -/
structure Stage where
  pending : Pending
  /-- The brackets that are open, the innermost first. -/
  opened : List Bracket
  /-- The tokens ahead. -/
  ahead : List (List Char)

/-- To read over from the stage `s` on is to read over some characters and then to go on from the
stage `t`. -/
def Stage.Leads (s t : Stage) : Prop :=
  ∀ c : Cursor, Spaced s.ahead c.rest → ∃ n,
    skip s.pending s.opened c = (skip t.pending t.opened (c.advance n)).map (n + ·) ∧
      Spaced t.ahead (c.advance n).rest

/-- What is pending inside a bracket in front of an entry or the end. -/
def Pending.inside (first : Bool) : Pending := if first then .first else .next

variable {c : Cursor} {ch : Char} {token cs : List Char} {tokens : List (List Char)}
  {bracket : Bracket} {opened : List Bracket}

/-! ## What follows a value -/

/-- No number runs into what follows a value. -/
theorem FollowsValue.endsNumber (h : FollowsValue tokens) (hSpaced : Spaced tokens cs) :
    EndsNumber cs := by
  have hBlank : ∀ ch, isBlank ch = true →
      ch.isDigit = false ∧ ch ≠ '.' ∧ ch ≠ 'e' ∧ ch ≠ 'E' := by
    intro ch hBlank
    simp only [isBlank, Bool.or_eq_true, beq_iff_eq] at hBlank
    rcases hBlank with ((rfl | rfl) | rfl) | rfl <;> decide
  intro ch hMem
  cases hSpaced with
  | nil hGap => exact hBlank ch (hGap ch (List.mem_of_mem_head? hMem))
  | @cons gap token cs tokens hGap hRest =>
      cases gap with
      | cons first rest =>
          obtain rfl : first = ch := Option.some.inj hMem
          exact hBlank first (hGap first List.mem_cons_self)
      | nil =>
          rcases h token rfl with rfl | rfl | rfl <;> obtain rfl := Option.some.inj hMem <;> decide

theorem followsValue_itemTokens (items : List Value) (tokens : List (List Char)) :
    FollowsValue (Value.itemTokens false items ++ tokens) := by
  intro token hMem
  cases items with
  | nil => exact .inr (.inl (Option.some.inj hMem).symm)
  | cons v rest => exact .inl (Option.some.inj hMem).symm

theorem followsValue_memberTokens (members : List (String × Value))
    (tokens : List (List Char)) :
    FollowsValue (Value.memberTokens false members ++ tokens) := by
  intro token hMem
  cases members with
  | nil => exact .inr (.inr (Option.some.inj hMem).symm)
  | cons m rest => exact .inl (Option.some.inj hMem).symm

/-! ## What a value starts with -/

/-- What the text of a value starts with, by the kind of the value. -/
def Starts (ch : Char) : Value → Prop
  | .null => ch = 'n'
  | .bool b => ch = if b then 't' else 'f'
  | .number _ => ch = '-' ∨ ch.isDigit = true
  | .string _ => ch = '"'
  | .array _ => ch = '['
  | .object _ => ch = '\x7b'

theorem exists_tokens (v : Value) :
    ∃ ch token tokens, v.tokens = (ch :: token) :: tokens ∧ Starts ch v := by
  cases v with
  | null => exact ⟨_, _, _, rfl, rfl⟩
  | bool b => cases b <;> exact ⟨_, _, _, rfl, rfl⟩
  | number n =>
      obtain ⟨ch, token, hText, hFirst⟩ := (isNumber_json n).exists_cons
      exact ⟨ch, token, [], by rw [Value.tokens, hText], hFirst⟩
  | string s => exact ⟨_, _, _, rfl, rfl⟩
  | array items => exact ⟨_, _, _, rfl, rfl⟩
  | object members => exact ⟨_, _, _, rfl, rfl⟩

/-- A number starts with nothing but a minus sign or a digit. -/
theorem ne_of_number {other : Char} (h : ch = '-' ∨ ch.isDigit = true) (hMinus : other ≠ '-')
    (hDigit : other.isDigit = false) : ch ≠ other := by
  rintro rfl
  rcases h with hSign | hRow
  · exact hMinus hSign
  · rw [hDigit] at hRow
    cases hRow

/-- No value starts with a blank, a comma or a closing bracket. -/
theorem Starts.isSolid {v : Value} (h : Starts ch v) :
    isBlank ch = false ∧ ch ≠ ',' ∧ ch ≠ ']' ∧ ch ≠ '\x7d' := by
  cases v with
  | number n =>
      have hOther : ∀ {other : Char}, other ≠ '-' → other.isDigit = false → ch ≠ other :=
        fun hMinus hDigit => ne_of_number h hMinus hDigit
      refine ⟨?_, hOther (by decide) rfl, hOther (by decide) rfl, hOther (by decide) rfl⟩
      simp only [isBlank, Bool.or_eq_false_iff, beq_eq_false_iff_ne]
      exact ⟨⟨⟨hOther (by decide) rfl, hOther (by decide) rfl⟩, hOther (by decide) rfl⟩,
        hOther (by decide) rfl⟩
  | bool b =>
      obtain rfl : ch = if b then 't' else 'f' := h
      cases b <;> decide
  | null | string | array | object =>
      obtain rfl := h
      decide

/-! ## Steps -/

theorem Stage.Leads.trans {s t u : Stage} (h : s.Leads t) (h' : t.Leads u) : s.Leads u := by
  intro c hSpaced
  obtain ⟨m, hSkip, hSpaced⟩ := h c hSpaced
  obtain ⟨n, hSkip', hSpaced⟩ := h' _ hSpaced
  rw [advance_advance] at hSkip' hSpaced
  refine ⟨m + n, ?_, hSpaced⟩
  rw [hSkip, hSkip']
  cases skip u.pending u.opened (c.advance (m + n)) with
  | error e => rfl
  | ok l => exact congrArg Except.ok (Nat.add_assoc m n l).symm

/-- A step that takes one character, which is no blank. -/
theorem leads_of_skip {p q : Pending} {opened opened' : List Bracket}
    (hSolid : isBlank ch = false)
    (h : ∀ (c : Cursor) (cs : List Char), c.skipBlanks.rest = ch :: cs →
      skip p opened c = (skip q opened' (c.skipBlanks.advance 1)).map (c.blanks + 1 + ·)) :
    Stage.Leads ⟨p, opened, [ch] :: tokens⟩ ⟨q, opened', tokens⟩ := by
  intro c hSpaced
  obtain ⟨cs, hRest, hSpaced⟩ := hSpaced.exists_rest hSolid
  refine ⟨c.blanks + 1, ?_, hSpaced.behind hRest⟩
  rw [h c _ hRest, skipBlanks, advance_advance]

/-- A step that takes nothing. -/
theorem leads_of_eq {p q : Pending} {opened opened' : List Bracket}
    (h : ∀ c : Cursor, Spaced tokens c.rest → skip p opened c = skip q opened' c) :
    Stage.Leads ⟨p, opened, tokens⟩ ⟨q, opened', tokens⟩ := by
  intro c hSpaced
  refine ⟨0, ?_, hSpaced⟩
  rw [h c hSpaced]
  show _ = (skip q opened' c).map (0 + ·)
  cases skip q opened' c with
  | error e => rfl
  | ok n => exact congrArg Except.ok (Nat.zero_add n).symm

theorem leads_list : Stage.Leads ⟨.value, opened, ['['] :: tokens⟩
    ⟨.first, .list :: opened, tokens⟩ := by
  refine leads_of_skip rfl fun c cs hRest => ?_
  rw [skip.eq_def]
  dsimp only
  split <;> simp_all

theorem leads_object : Stage.Leads ⟨.value, opened, ['\x7b'] :: tokens⟩
    ⟨.first, .object :: opened, tokens⟩ := by
  refine leads_of_skip rfl fun c cs hRest => ?_
  rw [skip.eq_def]
  dsimp only
  split <;> simp_all

/-- A closing bracket leads out of the bracket that it closes. -/
theorem leads_closing (first : Bool) :
    Stage.Leads ⟨.inside first, bracket :: opened, [bracket.closing] :: tokens⟩
      ⟨.next, opened, tokens⟩ := by
  have hSolid : isBlank bracket.closing = false := by cases bracket <;> rfl
  have hComma : bracket.closing ≠ ',' := by cases bracket <;> decide
  refine leads_of_skip hSolid fun c cs hRest => ?_
  cases first with
  | false =>
      show skip .next (bracket :: opened) c = _
      rw [skip.eq_def]
      dsimp only
      split <;> simp_all
  | true =>
      show skip .first (bracket :: opened) c = _
      rw [skip.eq_def]
      dsimp only
      split <;> simp_all

/-- In front of an entry stands a comma, unless the entry is the first. A first entry is one since
the bracket is not closed. -/
theorem leads_entry (first : Bool) (hSolid : isBlank ch = false) (hOpen : ch ≠ bracket.closing) :
    Stage.Leads ⟨.inside first, bracket :: opened, separator first ++ (ch :: token) :: tokens⟩
      ⟨.entry, bracket :: opened, (ch :: token) :: tokens⟩ := by
  cases first with
  | false =>
      refine leads_of_skip rfl fun c cs hRest => ?_
      show skip .next (bracket :: opened) c = _
      rw [skip.eq_def]
      dsimp only
      split <;> simp_all
  | true =>
      refine leads_of_eq fun c hSpaced => ?_
      obtain ⟨cs, hRest, -⟩ := Spaced.exists_rest hSpaced hSolid
      show skip .first (bracket :: opened) c = _
      rw [skip.eq_def]
      dsimp only
      split <;> simp_all

theorem leads_item (first : Bool) (v : Value) :
    Stage.Leads ⟨.inside first, .list :: opened, separator first ++ (v.tokens ++ tokens)⟩
      ⟨.value, .list :: opened, v.tokens ++ tokens⟩ := by
  obtain ⟨ch, token, more, hTokens, hStarts⟩ := exists_tokens v
  have hOpen : ch ≠ Bracket.list.closing := hStarts.isSolid.2.2.1
  rw [hTokens, List.cons_append]
  refine (leads_entry first hStarts.isSolid.1 hOpen).trans ?_
  refine leads_of_eq fun c hSpaced => ?_
  rw [skip.eq_def]

/-! ## Strings -/

theorem skipBody_of_rest {text : List Char} (h : c.rest = text.flatMap escape ++ '"' :: cs) :
    c.skipBody = .ok ((text.flatMap escape).length + 1) := by
  obtain ⟨rest, position⟩ := c
  obtain rfl : rest = text.flatMap escape ++ '"' :: cs := h
  exact skipBody_quoted text cs position

/-- A name is read over up to and including the colon behind it. -/
theorem skipName_of_rest {name : List Char} (h : c.rest = name.flatMap escape ++ '"' :: cs)
    (hColon : Spaced ([':'] :: tokens) cs) :
    ∃ n, c.skipName = .ok n ∧ Spaced tokens (c.advance n).rest := by
  have hBody := skipBody_of_rest h
  have hBehind : (c.advance ((name.flatMap escape).length + 1)).rest = cs := by
    rw [rest_advance, h, ← List.drop_drop, List.drop_left]
    rfl
  generalize (name.flatMap escape).length + 1 = m at hBody hBehind
  rw [← hBehind] at hColon
  obtain ⟨hRead, hSpaced⟩ := hColon.readColon
  rw [advance_advance] at hSpaced
  refine ⟨_, ?_, hSpaced⟩
  rw [skipName, hBody]
  dsimp only
  rw [hRead]
  rfl

theorem leads_member (first : Bool) (name : String) :
    Stage.Leads ⟨.inside first, .object :: opened,
        separator first ++ (quoteChars name.toList :: [':'] :: tokens)⟩
      ⟨.value, .object :: opened, tokens⟩ := by
  refine (leads_entry first rfl (by decide)).trans ?_
  intro c hSpaced
  obtain ⟨cs, hRest, hColon⟩ := Spaced.exists_rest hSpaced rfl
  have hBody : (c.skipBlanks.advance 1).rest = name.toList.flatMap escape ++ '"' :: cs := by
    rw [rest_advance, hRest]
    simp
  obtain ⟨n, hName, hSpaced⟩ := skipName_of_rest hBody hColon
  have hBehind : (c.skipBlanks.advance 1).advance n = c.advance (c.blanks + (n + 1)) := by
    rw [skipBlanks, advance_advance, advance_advance, Nat.add_comm n]
  have hSkip : skip .entry (.object :: opened) c =
      (skip .value (.object :: opened) (c.skipBlanks.advance (n + 1))).map
        (c.blanks + (n + 1) + ·) := by
    clear hBody hBehind hSpaced
    rw [skip.eq_def]
    dsimp only
    split <;> simp_all
  refine ⟨c.blanks + (n + 1), ?_, hBehind ▸ hSpaced⟩
  rw [hSkip, skipBlanks, advance_advance]

/-! ## Values -/

/-- A value without brackets is read over in one step. -/
theorem leads_scalar (hSolid : isBlank ch = false) (hList : ch ≠ '[') (hObject : ch ≠ '\x7b')
    (h : ∀ (c : Cursor) (cs : List Char), c.rest = ch :: (token ++ cs) → Spaced tokens cs →
      c.skipScalar ch = .ok token.length) :
    Stage.Leads ⟨.value, opened, (ch :: token) :: tokens⟩ ⟨.next, opened, tokens⟩ := by
  intro c hSpaced
  obtain ⟨cs, hRest, hSpaced⟩ := Spaced.exists_rest hSpaced hSolid
  have hScalar := h _ cs hRest hSpaced
  have hSkip : skip .value opened c = (skip .next opened
      (c.skipBlanks.advance (token.length + 1))).map (c.blanks + (token.length + 1) + ·) := by
    rw [skip.eq_def]
    dsimp only
    split <;> simp_all
  refine ⟨c.blanks + (token.length + 1), ?_, hSpaced.behind hRest⟩
  rw [hSkip, skipBlanks, advance_advance]

theorem leads_number (n : Number) (hFollows : FollowsValue tokens) :
    Stage.Leads ⟨.value, opened, n.json.toList :: tokens⟩ ⟨.next, opened, tokens⟩ := by
  have hNumber := isNumber_json n
  obtain ⟨ch, token, hText, hFirst⟩ := hNumber.exists_cons
  rw [hText] at hNumber ⊢
  have hStarts : Starts ch (.number n) := hFirst
  refine leads_scalar hStarts.isSolid.1 (ne_of_number hFirst (by decide) rfl)
    (ne_of_number hFirst (by decide) rfl) fun c cs hRest hSpaced => ?_
  rw [skipScalar, if_neg (ne_of_number hFirst (by decide) rfl), if_pos hFirst,
    hNumber.skipNumber hRest (hFollows.endsNumber hSpaced)]
  rfl

theorem leads_string (s : String) :
    Stage.Leads ⟨.value, opened, quoteChars s.toList :: tokens⟩ ⟨.next, opened, tokens⟩ := by
  refine leads_scalar rfl (by decide) (by decide) fun c cs hRest _ => ?_
  have hBody : (c.advance 1).rest = s.toList.flatMap escape ++ '"' :: cs := by
    rw [rest_advance, hRest]
    simp
  rw [skipScalar, if_pos rfl, skipBody_of_rest hBody]
  simp

/-- A word is read over letter by letter. -/
theorem readWord_of_rest {word : List Char} (h : c.rest = word ++ cs) :
    readWord word c = .ok word.length := by
  induction word generalizing c with
  | nil => rfl
  | cons w word ih =>
      have hRest : (c.advance 1).rest = word ++ cs := by
        rw [rest_advance, h]
        rfl
      rw [readWord, h, List.cons_append]
      dsimp only
      rw [if_pos rfl, ih hRest, List.length_cons, Nat.add_comm]
      rfl

theorem leads_word {word : List Char} (hWord : word? ch = some word) :
    Stage.Leads ⟨.value, opened, (ch :: word) :: tokens⟩ ⟨.next, opened, tokens⟩ := by
  have hLetter : ch = 'n' ∨ ch = 't' ∨ ch = 'f' := by
    unfold word? at hWord
    split at hWord <;> simp_all
  have hSolid : isBlank ch = false ∧ ch ≠ '[' ∧ ch ≠ '\x7b' := by
    rcases hLetter with rfl | rfl | rfl <;> decide
  refine leads_scalar hSolid.1 hSolid.2.1 hSolid.2.2 fun c cs hRest _ => ?_
  have hWordRest : (c.advance 1).rest = word ++ cs := by
    rw [rest_advance, hRest]
    rfl
  have hRead := readWord_of_rest hWordRest
  rcases hLetter with rfl | rfl | rfl <;> simp [skipScalar, hWord, hRead]

mutual

/-- **Reading over a value** leads behind it, whatever brackets are open around it. -/
theorem leads_value : (v : Value) → ∀ {opened : List Bracket} {tokens : List (List Char)},
    FollowsValue tokens →
      Stage.Leads ⟨.value, opened, v.tokens ++ tokens⟩ ⟨.next, opened, tokens⟩
  | .null, _, _, _ => leads_word rfl
  | .bool true, _, _, _ => leads_word rfl
  | .bool false, _, _, _ => leads_word rfl
  | .number n, _, _, h => leads_number n h
  | .string s, _, _, _ => leads_string s
  | .array items, _, _, _ => leads_list.trans (leads_items true items)
  | .object members, _, _, _ => leads_object.trans (leads_members true members)

/-- Reading over some items leads behind the list that they end. -/
theorem leads_items (first : Bool) : (items : List Value) →
    ∀ {opened : List Bracket} {tokens : List (List Char)},
      Stage.Leads ⟨.inside first, .list :: opened, Value.itemTokens first items ++ tokens⟩
        ⟨.next, opened, tokens⟩
  | [], _, _ => leads_closing first
  | v :: rest, opened, tokens => by
      rw [Value.itemTokens_cons_append]
      refine (leads_item first v).trans ?_
      exact (leads_value v (followsValue_itemTokens rest tokens)).trans (leads_items false rest)

theorem leads_members (first : Bool) : (members : List (String × Value)) →
    ∀ {opened : List Bracket} {tokens : List (List Char)},
      Stage.Leads ⟨.inside first, .object :: opened, Value.memberTokens first members ++ tokens⟩
        ⟨.next, opened, tokens⟩
  | [], _, _ => leads_closing first
  | (name, v) :: rest, opened, tokens => by
      rw [Value.memberTokens_cons_append]
      refine (leads_member first name).trans ?_
      exact (leads_value v (followsValue_memberTokens rest tokens)).trans
        (leads_members false rest)

end

/-- **A value is read over as a whole**, in whatever layout, up to what follows it. -/
theorem skipValue_of_spaced (v : Value) (hFollows : FollowsValue tokens)
    (h : Spaced (v.tokens ++ tokens) c.rest) :
    ∃ n, c.skipValue = .ok n ∧ Spaced tokens (c.advance n).rest := by
  have hDone : ∀ c : Cursor, skip .next [] c = .ok 0 := by
    intro c
    rw [skip.eq_def]
  have hLeads : Stage.Leads ⟨.value, [], v.tokens ++ tokens⟩ ⟨.next, [], tokens⟩ :=
    leads_value v hFollows
  obtain ⟨n, hSkip, hSpaced⟩ := hLeads c h
  refine ⟨n, ?_, hSpaced⟩
  rw [skipValue]
  exact hSkip.trans (congrArg (Except.map (n + ·)) (hDone _))

end Stencil.Json
