import Stencil.Json.Cursor
import Stencil.Value.Text

/-!
# Tokens and layouts of JSON texts

A JSON text is a row of tokens: brackets, commas, colons and values without brackets. Its compact
form has nothing in between; any other layout of the same value has blanks in front of some of the
tokens, or behind the last. Readers pass the blanks in front of each token they take, so what they
make of a text is told by the tokens ahead.

## Main results

* `Value.laidOutAs_json` — the compact text of a value is one of its layouts.
* `Spaced.exists_rest` — behind the blanks a reader finds the first token ahead.
-/

namespace Stencil

namespace Json

/-- A text of the given tokens in turn, with as many blanks as one likes in front of each of them
and behind the last. -/
inductive Spaced : List (List Char) → List Char → Prop
  | nil {blanks : List Char} (isBlank : ∀ c ∈ blanks, Cursor.isBlank c = true) : Spaced [] blanks
  | cons {blanks token cs : List Char} {tokens : List (List Char)}
      (isBlank : ∀ c ∈ blanks, Cursor.isBlank c = true) (rest : Spaced tokens cs) :
      Spaced (token :: tokens) (blanks ++ (token ++ cs))

/-- A token may stand right in front of the others. -/
theorem Spaced.adjacent {token cs : List Char} {tokens : List (List Char)}
    (h : Spaced tokens cs) : Spaced (token :: tokens) (token ++ cs) :=
  .cons (fun _ hMem => absurd hMem List.not_mem_nil) h

theorem spaced_flatten (tokens : List (List Char)) : Spaced tokens tokens.flatten := by
  induction tokens with
  | nil => exact .nil (fun _ hMem => absurd hMem List.not_mem_nil)
  | cons token rest ih => exact .adjacent ih

/-- What stands in front of an entry: a comma, save for the first one. -/
def separator (first : Bool) : List (List Char) := if first then [] else [[',']]

end Json

namespace Value

open Json

mutual

/-- The tokens of the text of a value. -/
def tokens : Value → List (List Char)
  | .null => [['n', 'u', 'l', 'l']]
  | .bool true => [['t', 'r', 'u', 'e']]
  | .bool false => [['f', 'a', 'l', 's', 'e']]
  | .number n => [n.json.toList]
  | .string s => [quoteChars s.toList]
  | .array items => ['['] :: itemTokens true items
  | .object members => ['\x7b'] :: memberTokens true members

/-- The tokens of some items of a list, its closing bracket included. -/
def itemTokens (first : Bool) : List Value → List (List Char)
  | [] => [[']']]
  | v :: rest => separator first ++ (v.tokens ++ itemTokens false rest)

/-- The tokens of some members of an object, its closing bracket included. -/
def memberTokens (first : Bool) : List (String × Value) → List (List Char)
  | [] => [['\x7d']]
  | (name, v) :: rest =>
    separator first ++ quoteChars name.toList :: [':'] :: (v.tokens ++ memberTokens false rest)

end

theorem itemTokens_cons_append (first : Bool) (v : Value) (rest : List Value)
    (behind : List (List Char)) :
    itemTokens first (v :: rest) ++ behind =
      separator first ++ (v.tokens ++ (itemTokens false rest ++ behind)) := by
  rw [itemTokens, List.append_assoc, List.append_assoc]

theorem memberTokens_cons_append (first : Bool) (name : String) (v : Value)
    (rest : List (String × Value)) (behind : List (List Char)) :
    memberTokens first ((name, v) :: rest) ++ behind =
      separator first ++ (quoteChars name.toList :: [':'] ::
        (v.tokens ++ (memberTokens false rest ++ behind))) := by
  rw [memberTokens, List.append_assoc, List.cons_append, List.cons_append, List.append_assoc]

/-- The text is a layout of the value: its compact text, with blanks around the tokens as one
likes. -/
def LaidOutAs (v : Value) (text : String) : Prop := Spaced v.tokens text.toList

/-! ## The compact text -/

mutual

theorem flatten_tokens : (v : Value) → v.tokens.flatten = v.json.toList
  | .null => rfl
  | .bool true => rfl
  | .bool false => rfl
  | .number n => by simp [tokens, json]
  | .string s => by simp [tokens, json, quote]
  | .array [] => rfl
  | .array (v :: rest) => by
      simp [tokens, itemTokens, separator, json, flatten_tokens v, flatten_itemTokens rest]
  | .object [] => rfl
  | .object ((name, v) :: rest) => by
      simp [tokens, memberTokens, separator, json, quote, flatten_tokens v,
        flatten_memberTokens rest]

theorem flatten_itemTokens : (items : List Value) →
    (itemTokens false items).flatten = (jsonItems items).toList ++ [']']
  | [] => rfl
  | v :: rest => by
      simp [itemTokens, separator, jsonItems, flatten_tokens v, flatten_itemTokens rest]

theorem flatten_memberTokens : (members : List (String × Value)) →
    (memberTokens false members).flatten = (jsonMembers members).toList ++ ['\x7d']
  | [] => rfl
  | (name, v) :: rest => by
      simp [memberTokens, separator, jsonMembers, quote, flatten_tokens v,
        flatten_memberTokens rest]

end

/-- The compact text of a value is the layout of it without blanks. -/
theorem laidOutAs_json (v : Value) : v.LaidOutAs v.json := by
  rw [LaidOutAs, ← flatten_tokens]
  exact spaced_flatten v.tokens

end Value

namespace Json

variable {c : Cursor} {ch : Char} {token cs : List Char} {tokens : List (List Char)}

/-! ## Passing blanks -/

theorem Cursor.rest_skipBlanks (c : Cursor) : c.skipBlanks.rest = c.rest.dropWhile isBlank := by
  have hParts : c.rest.takeWhile isBlank ++ c.rest.dropWhile isBlank = c.rest :=
    List.takeWhile_append_dropWhile
  calc c.skipBlanks.rest
      = (c.rest.takeWhile isBlank ++ c.rest.dropWhile isBlank).drop c.blanks := by
        rw [hParts, skipBlanks, rest_advance]
    _ = c.rest.dropWhile isBlank := List.drop_left

/-- The cursor at the entry behind a comma. -/
theorem Cursor.advance_entry (c : Cursor) :
    c.advance (c.blanks + 1 + (c.skipBlanks.advance 1).blanks) =
      (c.skipBlanks.advance 1).skipBlanks := by
  rw [← advance_advance, ← advance_advance]
  rfl

/-- Behind the blanks stands the first token ahead. -/
theorem Spaced.exists_rest (h : Spaced ((ch :: token) :: tokens) c.rest)
    (hSolid : Cursor.isBlank ch = false) :
    ∃ cs, c.skipBlanks.rest = ch :: (token ++ cs) ∧ Spaced tokens cs := by
  rw [Cursor.rest_skipBlanks]
  generalize c.rest = text at h
  cases h with
  | @cons blanks _ cs _ hBlank hRest =>
      refine ⟨cs, ?_, hRest⟩
      rw [List.dropWhile_append_of_pos hBlank, List.cons_append, List.dropWhile_cons_of_neg]
      simp [hSolid]

/-- Behind the first token stand the others. -/
theorem Spaced.behind (hRest : c.skipBlanks.rest = ch :: (token ++ cs)) (h : Spaced tokens cs) :
    Spaced tokens (c.advance (c.blanks + (token.length + 1))).rest := by
  have hBehind : (c.advance (c.blanks + (token.length + 1))).rest =
      c.skipBlanks.rest.drop (token.length + 1) := by
    rw [← Cursor.advance_advance]
    rfl
  rw [hBehind, hRest, List.drop_succ_cons, List.drop_left]
  exact h

/-- Behind a comma stands the token behind it. -/
theorem Spaced.exists_entry (h : Spaced ([','] :: (ch :: token) :: tokens) c.rest)
    (hSolid : Cursor.isBlank ch = false) :
    ∃ rest cs, c.skipBlanks.rest = ',' :: rest ∧
      (c.skipBlanks.advance 1).skipBlanks.rest = ch :: (token ++ cs) ∧ Spaced tokens cs := by
  obtain ⟨rest, hRest, hEntry⟩ := h.exists_rest rfl
  have hBehind : (c.skipBlanks.advance 1).rest = rest := by
    rw [Cursor.rest_advance, hRest]
    rfl
  rw [← hBehind] at hEntry
  obtain ⟨cs, hFirst, hSpaced⟩ := hEntry.exists_rest hSolid
  exact ⟨rest, cs, hRest, hFirst, hSpaced⟩

theorem Spaced.readColon (h : Spaced ([':'] :: tokens) c.rest) :
    c.readColon = .ok (c.blanks + 1) ∧ Spaced tokens (c.advance (c.blanks + 1)).rest := by
  obtain ⟨cs, hRest, hSpaced⟩ := h.exists_rest rfl
  refine ⟨?_, hSpaced.behind hRest⟩
  simp [Cursor.readColon, hRest]

/-- Behind the last token there are only blanks. -/
theorem Spaced.readEnd (h : Spaced [] c.rest) : c.readEnd = .ok () := by
  have hRest : c.skipBlanks.rest = [] := by
    rw [Cursor.rest_skipBlanks]
    generalize c.rest = text at h
    cases h with
    | nil hBlank =>
        rw [← List.append_nil text, List.dropWhile_append_of_pos hBlank, List.dropWhile_nil]
  rw [Cursor.readEnd, hRest]

end Json

end Stencil
