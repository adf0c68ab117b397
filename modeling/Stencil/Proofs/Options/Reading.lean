import Stencil.Options.Json
import Stencil.Proofs.Json.Skipping

/-!
# What options are read from a value

Whether a text gives options, and which, depends on the value that it is a layout of: the options
are taken from the members of an object one after the other, or from the items of a list. What a
reader makes of a text is told together with the tokens that it leaves ahead, so readers of parts
compose to readers of the whole, for layouts that give options as well as for those that do not.

## Main results

* `readMembers_reads` — the members of an object are read one after the other.
* `ofJson_of_laidOutAs` — the options of a text are those of its value.
-/

namespace Stencil

namespace Value

/-- The truth value that a value is. -/
def bool? : Value → Option Bool
  | .bool b => some b
  | _ => none

/-- The string that a value is. -/
def string? : Value → Option String
  | .string s => some s
  | _ => none

end Value

namespace RenderOptions

open Json Json.Cursor

/-! ## The options of a value -/

/-- What has been read after another member. -/
def Seen.store? (p : Seen) (name : String) (v : Value) : Option Seen :=
  if name = collapseName then v.bool?.map fun b => ⟨some b, p.placeholder?⟩
  else if name = placeholderName then v.string?.map fun s => ⟨p.collapse?, some s⟩
  else some p

/-- What has been read after some more members; nothing if one of them cannot be taken. -/
def Seen.storeAll? (p : Seen) : List (String × Value) → Option Seen
  | [] => some p
  | (name, v) :: rest =>
    if p.has name then none else (p.store? name v).bind fun q => q.storeAll? rest

/-- The options that the members of an object give. -/
def ofMembers? (members : List (String × Value)) : Option RenderOptions :=
  (Seen.storeAll? {} members).map Seen.complete

/-- The options that the items of a list behind its first one give. -/
def withItems? (collapse : Bool) : List Value → Option RenderOptions
  | [] => some ⟨collapse, ""⟩
  | v :: rest => v.string?.bind fun s => if rest.isEmpty then some ⟨collapse, s⟩ else none

/-- The options that the items of a list give. -/
def ofItems? : List Value → Option RenderOptions
  | [] => some {}
  | v :: rest => v.bool?.bind fun b => withItems? b rest

/-- The options that a value gives. -/
def ofValue? : Value → Option RenderOptions
  | .array items => ofItems? items
  | .object members => ofMembers? members
  | _ => none

/-! ## Readers -/

variable {α β : Type} {c : Cursor} {tokens : List (List Char)}

/-- The answer of a reader that has the given result and leaves the given tokens ahead. Where there
is no result the answer is a fault. -/
def Reads (c : Cursor) (tokens : List (List Char)) (answer : Except Fault (α × Nat)) :
    Option α → Prop
  | some a => ∃ n, answer = .ok (a, n) ∧ Spaced tokens (c.advance n).rest
  | none => ∃ fault, answer = .error fault

theorem Reads.map {answer : Except Fault (α × Nat)} {result : Option α} (f : α → β)
    (h : Reads c tokens answer result) :
    Reads c tokens (answer.map fun r => (f r.1, r.2)) (result.map f) := by
  cases result with
  | some a =>
      obtain ⟨n, rfl, hSpaced⟩ := h
      exact ⟨n, rfl, hSpaced⟩
  | none =>
      obtain ⟨fault, rfl⟩ := h
      exact ⟨fault, rfl⟩

/-- Reading that starts some characters further on. -/
theorem Reads.shift {answer : Except Fault (α × Nat)} {result : Option α} {k : Nat}
    (h : Reads (c.advance k) tokens answer result) :
    Reads c tokens (answer.map fun r => (r.1, k + r.2)) result := by
  cases result with
  | some a =>
      obtain ⟨n, rfl, hSpaced⟩ := h
      rw [advance_advance] at hSpaced
      exact ⟨k + n, rfl, hSpaced⟩
  | none =>
      obtain ⟨fault, rfl⟩ := h
      exact ⟨fault, rfl⟩

/-- Reading that goes on with what has been read. -/
theorem Reads.bind {d : Cursor} {ahead : List (List Char)} {answer : Except Fault (α × Nat)}
    {result : Option α} {next : α × Nat → Except Fault (β × Nat)} {f : α → Option β}
    (h : Reads d ahead answer result)
    (hNext : ∀ a n, answer = .ok (a, n) → Spaced ahead (d.advance n).rest →
      Reads c tokens (next (a, n)) (f a)) :
    Reads c tokens (answer.bind next) (result.bind f) := by
  cases result with
  | some a =>
      obtain ⟨n, rfl, hSpaced⟩ := h
      exact hNext a n rfl hSpaced
  | none =>
      obtain ⟨fault, rfl⟩ := h
      exact ⟨fault, rfl⟩

/-! ## Truth values and strings -/

/-- Only truth values start like their words. -/
theorem ne_of_bool?_eq_none {v : Value} {ch : Char} (h : Starts ch v) (hKind : v.bool? = none) :
    ¬ (ch = 't' ∨ ch = 'f') := by
  cases v with
  | bool b => cases hKind
  | number n =>
      rintro (hTrue | hFalse)
      · exact ne_of_number h (by decide) rfl hTrue
      · exact ne_of_number h (by decide) rfl hFalse
  | null | string | array | object =>
      obtain rfl := h
      decide

/-- Only strings start with a quote. -/
theorem ne_of_string?_eq_none {v : Value} {ch : Char} (h : Starts ch v) (hKind : v.string? = none) :
    ch ≠ '"' := by
  cases v with
  | string s => cases hKind
  | number n => exact ne_of_number h (by decide) rfl
  | bool b =>
      obtain rfl : ch = if b then 't' else 'f' := h
      cases b <;> decide
  | null | array | object =>
      obtain rfl := h
      decide

theorem readBool_reads (v : Value) (h : Spaced (v.tokens ++ tokens) c.rest) :
    Reads c tokens (readBool c) v.bool? := by
  cases hKind : v.bool? with
  | some b =>
      obtain rfl : v = .bool b := by
        cases v <;> simp_all [Value.bool?]
      obtain ⟨ch, word, hTokens, hWord, hLetter, hTruth⟩ : ∃ ch word,
          (Value.bool b).tokens = [ch :: word] ∧ word? ch = some word ∧ (ch = 't' ∨ ch = 'f') ∧
            (ch == 't') = b := by
        cases b
        · exact ⟨_, _, rfl, rfl, .inr rfl, rfl⟩
        · exact ⟨_, _, rfl, rfl, .inl rfl, rfl⟩
      have hSolid : isBlank ch = false := by
        rcases hLetter with rfl | rfl <;> rfl
      rw [hTokens] at h
      obtain ⟨cs, hRest, hSpaced⟩ := h.exists_rest hSolid
      have hLetters : (c.skipBlanks.advance 1).rest = word ++ cs := by
        rw [rest_advance, hRest]
        rfl
      have hRead := readWord_of_rest hLetters
      refine ⟨c.blanks + (word.length + 1), ?_, hSpaced.behind hRest⟩
      rw [readBool, hRest]
      dsimp only
      rw [if_pos hLetter]
      rcases hLetter with rfl | rfl <;>
        simp [readScalar, hWord, hRead, Except.map, ← hTruth, Nat.add_assoc, Nat.add_comm 1]
  | none =>
      obtain ⟨ch, token, more, hTokens, hStarts⟩ := exists_tokens v
      rw [hTokens, List.cons_append] at h
      obtain ⟨cs, hRest, -⟩ := h.exists_rest hStarts.isSolid.1
      rw [readBool, hRest]
      dsimp only
      rw [if_neg (ne_of_bool?_eq_none hStarts hKind)]
      exact ⟨_, rfl⟩

theorem readString_of_rest {s : String} {cs : List Char} (h : c.rest = quoteChars s.toList ++ cs) :
    c.readString = .ok (s, (quoteChars s.toList).length) := by
  have hBody : c.advance 1 = ⟨s.toList.flatMap escape ++ '"' :: cs, (c.advance 1).position⟩ := by
    rw [quoteChars] at h
    simp [advance, h]
  rw [readString, hBody, readBody_quoted]
  simp [Except.map, quoteChars]

theorem readText_reads (v : Value) (h : Spaced (v.tokens ++ tokens) c.rest) :
    Reads c tokens (readText c) v.string? := by
  cases hKind : v.string? with
  | some s =>
      obtain rfl : v = .string s := by
        cases v <;> simp_all [Value.string?]
      obtain ⟨cs, hRest, hSpaced⟩ := Spaced.exists_rest h rfl
      have hRead := readString_of_rest hRest
      refine ⟨c.blanks + (quoteChars s.toList).length, ?_, hSpaced.behind hRest⟩
      rw [readText, hRest]
      dsimp only
      rw [if_pos rfl, hRead]
      rfl
  | none =>
      obtain ⟨ch, token, more, hTokens, hStarts⟩ := exists_tokens v
      rw [hTokens, List.cons_append] at h
      obtain ⟨cs, hRest, -⟩ := h.exists_rest hStarts.isSolid.1
      rw [readText, hRest]
      dsimp only
      rw [if_neg (ne_of_string?_eq_none hStarts hKind)]
      exact ⟨_, rfl⟩

/-! ## Members -/

theorem readMember_reads (p : Seen) (name : String) (v : Value) (hFollows : FollowsValue tokens)
    (h : Spaced (v.tokens ++ tokens) c.rest) :
    Reads c tokens (readMember p name c) (p.store? name v) := by
  unfold readMember Seen.store?
  split
  · exact (readBool_reads v h).map fun b => (⟨some b, p.placeholder?⟩ : Seen)
  · split
    · exact (readText_reads v h).map fun s => (⟨p.collapse?, some s⟩ : Seen)
    · obtain ⟨n, hSkip, hSpaced⟩ := skipValue_of_spaced v hFollows h
      exact ⟨n, by rw [hSkip]; rfl, hSpaced⟩

theorem nextMember_closed (first : Bool) (h : Spaced (['\x7d'] :: tokens) c.rest) :
    ∃ n, nextMember first c = .ok (.closed n) ∧ Spaced tokens (c.advance n).rest := by
  obtain ⟨cs, hRest, hSpaced⟩ := h.exists_rest rfl
  refine ⟨c.blanks + 1, ?_, hSpaced.behind hRest⟩
  simp [nextMember, hRest]

theorem nextMember_entry (first : Bool) {name : List Char}
    (h : Spaced (separator first ++ quoteChars name :: tokens) c.rest) :
    ∃ n cs, nextMember first c = .ok (.entry n) ∧ (c.advance n).rest = quoteChars name ++ cs ∧
      Spaced tokens cs := by
  cases first with
  | true =>
      obtain ⟨cs, hRest, hSpaced⟩ := Spaced.exists_rest h rfl
      refine ⟨c.blanks, cs, ?_, hRest, hSpaced⟩
      simp [nextMember, hRest]
  | false =>
      obtain ⟨rest, cs, hRest, hQuote, hSpaced⟩ := Spaced.exists_entry h rfl
      refine ⟨c.blanks + 1 + (c.skipBlanks.advance 1).blanks, cs, ?_, ?_, hSpaced⟩
      · simp [nextMember, hRest, hQuote]
      · rw [advance_entry]
        exact hQuote

/-- A member that has its colon is refused if it has been met before, and else it is taken. -/
theorem readMembers_of_member {first : Bool} {p : Seen} {name : String} {n m colon : Nat}
    (hNext : nextMember first c = .ok (.entry n))
    (hName : (c.advance n).readString = .ok (name, m))
    (hColon : (c.advance (n + m)).readColon = .ok colon) :
    readMembers first p c =
      if p.has name then .error (repeated name (c.advance (n + m)))
      else (readMember p name (c.advance (n + m + colon))).bind fun r =>
        (readMembers false r.1 (c.advance (n + m + colon + r.2))).map fun s =>
          (s.1, n + m + colon + r.2 + s.2) := by
  rw [readMembers.eq_def]
  split
  · simp_all
  · simp_all
  · rename_i hEntry
    obtain rfl : n = _ := by simpa [hNext] using hEntry
    rw [hName]
    dsimp only
    rw [hColon]
    dsimp only
    cases readMember p name (c.advance (n + m + colon)) <;> rfl

theorem readMembers_reads (members : List (String × Value)) (first : Bool) (p : Seen)
    (h : Spaced (Value.memberTokens first members ++ tokens) c.rest) :
    Reads c tokens (readMembers first p c) ((p.storeAll? members).map Seen.complete) := by
  induction members generalizing first p c with
  | nil =>
      obtain ⟨n, hNext, hSpaced⟩ := nextMember_closed first h
      refine ⟨n, ?_, hSpaced⟩
      rw [readMembers.eq_def]
      split <;> simp_all
  | cons member rest ih =>
      obtain ⟨name, v⟩ := member
      rw [Value.memberTokens_cons_append] at h
      obtain ⟨n, cs, hNext, hRest, hColon⟩ := nextMember_entry first h
      have hName := readString_of_rest hRest
      have hBehind : (c.advance (n + (quoteChars name.toList).length)).rest = cs := by
        rw [← advance_advance, rest_advance, hRest, List.drop_left]
      rw [← hBehind] at hColon
      obtain ⟨hReadColon, hSpaced⟩ := hColon.readColon
      rw [advance_advance] at hSpaced
      have hMember := readMember_reads p name v (followsValue_memberTokens rest tokens) hSpaced
      rw [readMembers_of_member hNext hName hReadColon, Seen.storeAll?]
      split
      · exact ⟨_, rfl⟩
      · rw [Option.map_bind]
        refine hMember.bind fun q l _ hRest => ?_
        rw [advance_advance] at hRest
        exact (ih false q hRest).shift

/-! ## Items of a list -/

theorem nextItem_closed (first : Bool) (h : Spaced ([']'] :: tokens) c.rest) :
    ∃ n, nextItem first c = .ok (.closed n) := by
  obtain ⟨cs, hRest, hSpaced⟩ := h.exists_rest rfl
  exact ⟨c.blanks + 1, by simp [nextItem, hRest]⟩

theorem nextItem_entry (first : Bool) (v : Value)
    (h : Spaced (separator first ++ (v.tokens ++ tokens)) c.rest) :
    ∃ n, nextItem first c = .ok (.entry n) ∧ Spaced (v.tokens ++ tokens) (c.advance n).rest := by
  obtain ⟨ch, token, more, hTokens, hStarts⟩ := exists_tokens v
  obtain ⟨hSolid, -, hOpen, -⟩ := hStarts.isSolid
  rw [hTokens, List.cons_append] at h ⊢
  cases first with
  | true =>
      obtain ⟨cs, hRest, hSpaced⟩ := Spaced.exists_rest h hSolid
      refine ⟨c.blanks, by simp [nextItem, hRest], ?_⟩
      show Spaced _ c.skipBlanks.rest
      rw [hRest]
      exact .adjacent hSpaced
  | false =>
      obtain ⟨rest, cs, hRest, hFirst, hSpaced⟩ := Spaced.exists_entry h hSolid
      refine ⟨c.blanks + 1 + (c.skipBlanks.advance 1).blanks, ?_, ?_⟩
      · simp [nextItem, hRest, hFirst, hOpen]
      · rw [advance_entry, hFirst]
        exact .adjacent hSpaced

theorem readEntry_closed (first : Bool) (default : α)
    (read : Cursor → Except Fault (α × Nat)) (h : Spaced ([']'] :: tokens) c.rest) :
    readEntry first default read c = .ok (default, 0) := by
  obtain ⟨n, hNext⟩ := nextItem_closed first h
  rw [readEntry, hNext]

theorem readEntry_reads (first : Bool) (default : α) {read : Cursor → Except Fault (α × Nat)}
    {result : Option α} (v : Value)
    (hRead : ∀ c : Cursor, Spaced (v.tokens ++ tokens) c.rest → Reads c tokens (read c) result)
    (h : Spaced (separator first ++ (v.tokens ++ tokens)) c.rest) :
    Reads c tokens (readEntry first default read c) result := by
  obtain ⟨n, hNext, hSpaced⟩ := nextItem_entry first v h
  rw [readEntry, hNext]
  exact (hRead _ hSpaced).shift

/-- The end of a list is read where it is, and nothing else is taken for it. -/
theorem readListEnd_closed (h : Spaced ([']'] :: tokens) c.rest) :
    readListEnd c = .ok (c.blanks + 1) ∧ Spaced tokens (c.advance (c.blanks + 1)).rest := by
  obtain ⟨cs, hRest, hSpaced⟩ := h.exists_rest rfl
  exact ⟨by simp [readListEnd, hRest], hSpaced.behind hRest⟩

theorem readListEnd_entry (h : Spaced ([','] :: tokens) c.rest) :
    ∃ fault, readListEnd c = .error fault := by
  obtain ⟨cs, hRest, -⟩ := h.exists_rest rfl
  simp only [readListEnd, hRest]
  split <;> exact ⟨_, rfl⟩

/-- A truth value has characters, so an entry that has been read is told from one that is not
there. -/
theorem pos_of_readBool {b : Bool} {n : Nat} (h : readBool c = .ok (b, n)) : 0 < n := by
  unfold readBool at h
  dsimp only at h
  split at h
  · cases h
  · rename_i ch _ _
    split at h
    · cases hScalar : readScalar ch c.skipBlanks with
      | error fault =>
          rw [hScalar] at h
          cases h
      | ok r =>
          rw [hScalar] at h
          have hCount : c.blanks + 1 + r.2 = n := (Prod.mk.inj (Except.ok.inj h)).2
          omega
    · cases h

theorem pos_of_readEntry {first b default : Bool} {n : Nat} (v : Value)
    (hItem : Spaced (separator first ++ (v.tokens ++ tokens)) c.rest)
    (h : readEntry first default readBool c = .ok (b, n)) : 0 < n := by
  obtain ⟨k, hNext, -⟩ := nextItem_entry first v hItem
  rw [readEntry, hNext] at h
  dsimp only at h
  cases hRead : readBool (c.advance k) with
  | error fault =>
      rw [hRead] at h
      cases h
  | ok r =>
      rw [hRead] at h
      have hPos := pos_of_readBool hRead
      have hCount : k + r.2 = n := (Prod.mk.inj (Except.ok.inj h)).2
      omega

/-- Reads what stands behind the first item of a list. -/
def readBehind (collapse first : Bool) (c : Cursor) : Except Fault (RenderOptions × Nat) :=
  (readEntry first "" readText c).bind fun r =>
    (readListEnd (c.advance r.2)).map fun k => (⟨collapse, r.1⟩, r.2 + k)

theorem readEntries_eq (c : Cursor) :
    readEntries c = (readEntry true false readBool c).bind fun r =>
      (readBehind r.1 (r.2 == 0) (c.advance r.2)).map fun s => (s.1, r.2 + s.2) := by
  unfold readEntries readBehind
  cases readEntry true false readBool c with
  | error fault => rfl
  | ok r =>
      show _ = Except.map _ _
      dsimp only
      cases readEntry (r.2 == 0) "" readText (c.advance r.2) with
      | error fault => rfl
      | ok s =>
          show _ = Except.map _ (Except.map _ _)
          dsimp only
          rw [advance_advance]
          cases readListEnd (c.advance (r.2 + s.2)) with
          | error fault => rfl
          | ok k => exact congrArg Except.ok (Prod.ext rfl (Nat.add_assoc _ _ _))

theorem readBehind_reads (collapse first : Bool) (items : List Value)
    (h : Spaced (Value.itemTokens first items ++ tokens) c.rest) :
    Reads c tokens (readBehind collapse first c) (withItems? collapse items) := by
  cases items with
  | nil =>
      have hNone := readEntry_closed first "" readText h
      obtain ⟨hEnd, hSpaced⟩ := readListEnd_closed h
      refine ⟨0 + (c.blanks + 1), ?_, by rwa [Nat.zero_add]⟩
      rw [readBehind, hNone]
      show (readListEnd c).map _ = _
      rw [hEnd]
      rfl
  | cons v rest =>
      rw [Value.itemTokens_cons_append] at h
      have hEntry := readEntry_reads first "" v (fun c hItem => readText_reads v hItem) h
      refine hEntry.bind fun s m _ hRest => ?_
      cases rest with
      | nil =>
          obtain ⟨hEnd, hSpaced⟩ := readListEnd_closed hRest
          rw [advance_advance] at hSpaced
          rw [hEnd]
          exact ⟨_, rfl, hSpaced⟩
      | cons w more =>
          rw [Value.itemTokens_cons_append] at hRest
          obtain ⟨fault, hEnd⟩ := readListEnd_entry hRest
          rw [hEnd]
          exact ⟨fault, rfl⟩

theorem readEntries_reads (items : List Value)
    (h : Spaced (Value.itemTokens true items ++ tokens) c.rest) :
    Reads c tokens (readEntries c) (ofItems? items) := by
  rw [readEntries_eq]
  cases items with
  | nil =>
      rw [readEntry_closed true false readBool h]
      have hRest : Spaced (Value.itemTokens true [] ++ tokens) (c.advance 0).rest := h
      exact (readBehind_reads false true [] hRest).shift
  | cons v rest =>
      rw [Value.itemTokens_cons_append] at h
      have hEntry := readEntry_reads true false v (fun c hItem => readBool_reads v hItem) h
      refine hEntry.bind fun b n hRead hRest => ?_
      have hLater : (n == 0) = false := beq_false_of_ne (Nat.ne_of_gt (pos_of_readEntry v h hRead))
      rw [hLater]
      exact (readBehind_reads b false rest hRest).shift

/-! ## Whole texts -/

theorem readOptions_reads (v : Value) (h : Spaced (v.tokens ++ tokens) c.rest) :
    Reads c tokens (readOptions c) (ofValue? v) := by
  obtain ⟨ch, token, more, hTokens, hStarts⟩ := exists_tokens v
  have hFirst := h
  rw [hTokens, List.cons_append] at hFirst
  obtain ⟨cs, hRest, hBehind⟩ := hFirst.exists_rest hStarts.isSolid.1
  have hInside : ∀ {ahead : List (List Char)}, Spaced ([ch] :: ahead) c.rest →
      Spaced ahead (c.advance (c.blanks + 1)).rest := by
    intro ahead hAhead
    obtain ⟨cs, hRest, hSpaced⟩ := hAhead.exists_rest hStarts.isSolid.1
    exact hSpaced.behind hRest
  have hAdvance : c.skipBlanks.advance 1 = c.advance (c.blanks + 1) := advance_advance c _ _
  rw [readOptions, hRest]
  dsimp only
  rw [hAdvance]
  cases v with
  | array items =>
      obtain rfl : ch = '[' := hStarts
      rw [if_pos rfl]
      exact (readEntries_reads items (hInside h)).shift
  | object members =>
      obtain rfl : ch = '\x7b' := hStarts
      rw [if_neg (by decide), if_pos rfl]
      exact (readMembers_reads members true {} (hInside h)).shift
  | number n =>
      rw [if_neg (ne_of_number hStarts (by decide) rfl),
        if_neg (ne_of_number hStarts (by decide) rfl)]
      exact ⟨_, rfl⟩
  | bool b =>
      obtain rfl : ch = if b then 't' else 'f' := hStarts
      cases b <;> exact ⟨_, rfl⟩
  | null | string =>
      obtain rfl := hStarts
      exact ⟨_, rfl⟩

/-- **The options of a text** are those of the value that it is a layout of. Where the value gives
none, the text is refused. -/
theorem ofJson_of_laidOutAs {v : Value} {text : String} (h : v.LaidOutAs text) :
    match ofValue? v with
    | some o => ofJson text = .ok o
    | none => ∃ fault, ofJson text = .error (.options (.json fault)) := by
  have hSpaced : Spaced (v.tokens ++ []) (Cursor.ofString text).rest := by
    rwa [List.append_nil]
  have hReads := readOptions_reads v hSpaced
  cases hOptions : ofValue? v with
  | some o =>
      rw [hOptions] at hReads
      obtain ⟨n, hRead, hEnd⟩ := hReads
      show ofJson text = .ok o
      unfold ofJson
      dsimp only
      rw [hRead]
      dsimp only
      rw [hEnd.readEnd]
  | none =>
      rw [hOptions] at hReads
      obtain ⟨fault, hRead⟩ := hReads
      refine ⟨fault, ?_⟩
      unfold ofJson
      dsimp only
      rw [hRead]

end RenderOptions

end Stencil
