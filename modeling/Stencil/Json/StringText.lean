import Stencil.Json.Cursor
import Stencil.Json.Quoted
import Stencil.Text.Hex

/-!
# Reading quoted strings

Between quotes every character stands for itself, except for the quote, the backslash and
the control characters below U+0020. A backslash starts an escape: one of eight letters, or
`u` and the four hexadecimal digits of a UTF-16 code unit. A character beyond U+FFFF is
written as the escapes of its two surrogates, the leading one first.

A string that is read over without being needed is held to less: its escapes have to be well
formed, but their codes need not be those of characters.

## Main results

* `readBody_quoted` — the quoted form of any text is read back as that text.
* `skipBody_quoted` — and it is read over as a whole.
-/

namespace Stencil.Json

/-- The character that a letter after a backslash stands for. -/
def unescape? : Char → Option Char
  | '"' => some '"'
  | '\\' => some '\\'
  | '/' => some '/'
  | 'b' => some '\x08'
  | 'f' => some '\x0c'
  | 'n' => some '\n'
  | 'r' => some '\r'
  | 't' => some '\t'
  | _ => none

namespace Cursor

/-- Reads the four hexadecimal digits of an escape. If fewer than four bytes are left, the
text ends too early. -/
def readHex (c : Cursor) : Except Fault Nat :=
  let digits := c.rest.take 4
  if digits.foldl (fun n ch => n + ch.utf8Size) 0 < 4 then
    .error ((c.advance c.rest.length).here (.unfinished .string))
  else
    match Text.hexValue? digits with
    | some n => .ok n
    | none => .error ⟨.badEscape, c.position.advanceBytes 4 c.rest⟩

/-- Reads one given character of a pair of escapes. -/
def readPaired (expected : Char) (c : Cursor) : Except Fault Unit :=
  match c.rest with
  | [] => .error (c.here (.unfinished .string))
  | ch :: _ => if ch = expected then .ok () else .error (c.ahead .unpairedEscape)

def isLeading (n : Nat) : Bool := 0xD800 ≤ n && n ≤ 0xDBFF

def isTrailing (n : Nat) : Bool := 0xDC00 ≤ n && n ≤ 0xDFFF

/-- Reads an escape from the four digits after its letter `u` on, and the escape of the
trailing surrogate if the first one is of a leading surrogate. -/
def readCode (c : Cursor) : Except Fault (Char × Nat) := do
  let unit ← c.readHex
  let d := c.advance 4
  if isTrailing unit then throw (d.here .loneSurrogate)
  if !isLeading unit then return (Char.ofNat unit, 4)
  d.readPaired '\\'
  (d.advance 1).readPaired 'u'
  let second ← (d.advance 2).readHex
  if !isTrailing second then throw ((d.advance 6).here .loneSurrogate)
  return (Char.ofNat (0x10000 + (unit - 0xD800) * 0x400 + (second - 0xDC00)), 10)

/-- Reads an escape from the character after the backslash on. -/
def readEscape (c : Cursor) : Except Fault (Char × Nat) :=
  match c.rest with
  | [] => .error (c.here (.unfinished .string))
  | ch :: _ =>
    if ch = 'u' then ((c.advance 1).readCode).map fun r => (r.1, r.2 + 1)
    else
      match unescape? ch with
      | some meant => .ok (meant, 1)
      | none => .error (c.ahead .badEscape)

/-- Reads a string from behind its opening quote on, up to and including its closing
quote. -/
def readBody (c : Cursor) : Except Fault (List Char × Nat) :=
  match _ : c.rest with
  | [] => .error (c.here (.unfinished .string))
  | ch :: _ =>
    if ch = '"' then .ok ([], 1)
    else if ch = '\\' then
      match (c.advance 1).readEscape with
      | .error e => .error e
      | .ok (meant, n) =>
        (c.advance (n + 1)).readBody.map fun r => (meant :: r.1, r.2 + (n + 1))
    else if ch.toNat < 0x20 then .error (c.ahead .controlCharacter)
    else (c.advance 1).readBody.map fun r => (ch :: r.1, r.2 + 1)
termination_by c.rest.length
decreasing_by all_goals exact length_advance_lt ‹_› (Nat.succ_pos _)

def readString (c : Cursor) : Except Fault (String × Nat) :=
  (c.advance 1).readBody.map fun r => (String.ofList r.1, r.2 + 1)

/-- Reads over an escape from the character after the backslash on. -/
def skipEscape (c : Cursor) : Except Fault Nat :=
  match c.rest with
  | [] => .error (c.here (.unfinished .string))
  | ch :: _ =>
    if ch = 'u' then (c.advance 1).readHex.map fun _ => 5
    else if (unescape? ch).isSome then .ok 1
    else .error (c.ahead .badEscape)

/-- Reads over a string from behind its opening quote on. -/
def skipBody (c : Cursor) : Except Fault Nat :=
  match _ : c.rest with
  | [] => .error (c.here (.unfinished .string))
  | ch :: _ =>
    if ch = '"' then .ok 1
    else if ch = '\\' then
      match (c.advance 1).skipEscape with
      | .error e => .error e
      | .ok n => (c.advance (n + 1)).skipBody.map (· + (n + 1))
    else if ch.toNat < 0x20 then .error (c.here .controlCharacter)
    else (c.advance 1).skipBody.map (· + 1)
termination_by c.rest.length
decreasing_by all_goals exact length_advance_lt ‹_› (Nat.succ_pos _)

/-! ## Reading what was written -/

private theorem utf8Size_digitChar {n : Nat} (h : n < 16) : (Nat.digitChar n).utf8Size = 1 := by
  revert n
  decide

private theorem readHex_escapeCode {n : Nat} (h : n < 32) (rest : List Char) (pos : Position) :
    readHex ⟨'0' :: '0' :: Nat.digitChar (n / 16) :: Nat.digitChar (n % 16) :: rest, pos⟩ =
      .ok n := by
  have hzero : Text.hexDigit? '0' = some 0 := by decide
  have hsize : ('0' : Char).utf8Size = 1 := by decide
  simp only [readHex, List.take_succ_cons, List.take_zero, hsize,
    utf8Size_digitChar (show n / 16 < 16 by omega),
    utf8Size_digitChar (show n % 16 < 16 by omega), Text.hexValue?, List.foldl_cons, List.foldl_nil,
    Text.hexDigit?_digitChar (show n / 16 < 16 by omega),
    Text.hexDigit?_digitChar (show n % 16 < 16 by omega), hzero, Option.bind_some, Option.map_some]
  rw [if_neg (by decide)]
  simp only [Except.ok.injEq]
  omega

private theorem readCode_escapeCode {n : Nat} (h : n < 32) (rest : List Char)
    (pos : Position) :
    readCode ⟨'0' :: '0' :: Nat.digitChar (n / 16) :: Nat.digitChar (n % 16) :: rest, pos⟩ =
      .ok (Char.ofNat n, 4) := by
  have ht : isTrailing n = false := by simp [isTrailing]; omega
  have hl : isLeading n = false := by simp [isLeading]; omega
  simp [readCode, readHex_escapeCode h, ht, hl, bind, Except.bind, pure, Except.pure]

/-- A character that needs an escape is read back from it, and read over with it. -/
theorem readEscape_escape {c : Char} (h : ¬ isPlain c) (rest : List Char) (pos : Position) :
    ∃ tail, escape c = '\\' :: tail ∧
      readEscape ⟨tail ++ rest, pos⟩ = .ok (c, tail.length) ∧
      skipEscape ⟨tail ++ rest, pos⟩ = .ok tail.length := by
  unfold escape
  repeat' split
  all_goals try (subst_vars; exact ⟨_, rfl, rfl, rfl⟩)
  · rename_i hlt
    refine ⟨_, rfl, ?_, ?_⟩
    · simp [readEscape, advance, readCode_escapeCode hlt, Except.map, Char.ofNat_toNat]
    · simp [skipEscape, advance, readHex_escapeCode hlt, Except.map]
  · rename_i hquote hback _ _ _ _ _ hcontrol
    refine absurd ?_ h
    simp [isPlain, hquote, hback]
    omega

private theorem readBody_cons (ch : Char) (rest : List Char) (pos : Position) :
    readBody ⟨ch :: rest, pos⟩ =
      if ch = '"' then .ok ([], 1)
      else if ch = '\\' then
        match readEscape ⟨rest, pos.after ch⟩ with
        | .error e => .error e
        | .ok (meant, n) =>
          (advance ⟨rest, pos.after ch⟩ n).readBody.map fun r => (meant :: r.1, r.2 + (n + 1))
      else if ch.toNat < 0x20 then .error (ahead ⟨ch :: rest, pos⟩ .controlCharacter)
      else (readBody ⟨rest, pos.after ch⟩).map fun r => (ch :: r.1, r.2 + 1) := by
  rw [readBody]
  rfl

/-- The quoted form of any text is read back as that text, whatever follows it. -/
theorem readBody_quoted (cs rest : List Char) (pos : Position) :
    readBody ⟨cs.flatMap escape ++ '"' :: rest, pos⟩ =
      .ok (cs, (cs.flatMap escape).length + 1) := by
  induction cs generalizing pos with
  | nil => simp [readBody_cons]
  | cons c cs ih =>
    by_cases hplain : isPlain c
    · rw [List.flatMap_cons, (escape_eq_self_iff c).2 hplain]
      simp only [isPlain, Bool.and_eq_true, decide_eq_true_eq] at hplain
      rw [List.singleton_append, List.cons_append, readBody_cons, if_neg hplain.1.1,
        if_neg hplain.1.2, if_neg (by omega), ih]
      rfl
    · obtain ⟨tail, htail, hread, -⟩ :=
        readEscape_escape hplain (cs.flatMap escape ++ '"' :: rest) (pos.after '\\')
      rw [List.flatMap_cons, htail, List.cons_append, List.cons_append, List.append_assoc,
        readBody_cons, if_neg (by decide), if_pos rfl]
      simp only [hread, advance, List.drop_left, ih, Except.map, List.length_cons,
        List.length_append, Except.ok.injEq, Prod.mk.injEq, true_and]
      omega

private theorem skipBody_cons (ch : Char) (rest : List Char) (pos : Position) :
    skipBody ⟨ch :: rest, pos⟩ =
      if ch = '"' then .ok 1
      else if ch = '\\' then
        match skipEscape ⟨rest, pos.after ch⟩ with
        | .error e => .error e
        | .ok n => (advance ⟨rest, pos.after ch⟩ n).skipBody.map (· + (n + 1))
      else if ch.toNat < 0x20 then .error (here ⟨ch :: rest, pos⟩ .controlCharacter)
      else (skipBody ⟨rest, pos.after ch⟩).map (· + 1) := by
  rw [skipBody]
  rfl

/-- The quoted form of any text is read over, whatever follows it. -/
theorem skipBody_quoted (cs rest : List Char) (pos : Position) :
    skipBody ⟨cs.flatMap escape ++ '"' :: rest, pos⟩ = .ok ((cs.flatMap escape).length + 1) := by
  induction cs generalizing pos with
  | nil => simp [skipBody_cons]
  | cons c cs ih =>
    by_cases hplain : isPlain c
    · rw [List.flatMap_cons, (escape_eq_self_iff c).2 hplain]
      simp only [isPlain, Bool.and_eq_true, decide_eq_true_eq] at hplain
      rw [List.singleton_append, List.cons_append, skipBody_cons, if_neg hplain.1.1,
        if_neg hplain.1.2, if_neg (by omega), ih]
      rfl
    · obtain ⟨tail, htail, -, hskip⟩ :=
        readEscape_escape hplain (cs.flatMap escape ++ '"' :: rest) (pos.after '\\')
      rw [List.flatMap_cons, htail, List.cons_append, List.cons_append, List.append_assoc,
        skipBody_cons, if_neg (by decide), if_pos rfl]
      simp only [hskip, advance, List.drop_left, ih, Except.map, List.length_cons,
        List.length_append, Except.ok.injEq]
      omega

end Cursor

end Stencil.Json
