import Stencil.Text.Hex
import Stencil.Yaml.Gap

/-!
# Quoted scalars

Between single quotes a quote is written twice and everything else stands for itself. Between
double quotes a backslash starts an escape; in front of a line break it joins the lines
without a space. In both kinds the text may go over several lines.
-/

namespace Stencil.Yaml

/-- The character that a letter after a backslash stands for. -/
def escapeLetter? : Char → Option Char
  | '0' => some '\x00'
  | 'a' => some '\x07'
  | 'b' => some '\x08'
  | 't' => some '\t'
  | '\t' => some '\t'
  | 'n' => some '\n'
  | 'v' => some '\x0b'
  | 'f' => some '\x0c'
  | 'r' => some '\r'
  | 'e' => some '\x1b'
  | ' ' => some ' '
  | '"' => some '"'
  | '/' => some '/'
  | '\\' => some '\\'
  | 'N' => some '\u0085'
  | '_' => some '\u00a0'
  | 'L' => some '\u2028'
  | 'P' => some '\u2029'
  | _ => none

/-- The number of hexadecimal digits after a letter that starts the code of a character. -/
def codeLength? : Char → Option Nat
  | 'x' => some 2
  | 'u' => some 4
  | 'U' => some 8
  | _ => none

/-- The character with the given code, unless there is none. -/
def charOfCode? (code : Nat) : Option Char :=
  if h : code.isValidChar then some (Char.ofNatAux code h) else none

/-- The character that the escape ahead stands for, and the length of the escape without its
backslash. -/
def escape? : List Char → Option (Char × Nat)
  | [] => none
  | letter :: rest =>
    match codeLength? letter with
    | some n =>
      if (rest.take n).length = n then
        ((Text.hexValue? (rest.take n)).bind charOfCode?).map (·, n + 1)
      else none
    | none => (escapeLetter? letter).map (·, 1)

/-- What a backslash between double quotes stands in front of. -/
inductive Backslash
  /-- An escape of `n` characters that stands for `meant`. -/
  | char (meant : Char) (n : Nat)
  /-- A line break of `n` characters. -/
  | lineBreak (n : Nat)

/-- What stands behind a backslash. -/
def backslash? : List Char → Option Backslash
  | [] => none
  | '\r' :: '\n' :: _ => some (.lineBreak 2)
  | c :: rest =>
    if isBreak c then some (.lineBreak 1)
    else (escape? (c :: rest)).map fun r => .char r.1 r.2

/-- A piece of a quoted scalar without spacing. -/
structure QuotedWord where
  text : List Char
  length : Nat
  /-- Whether it ends in an escaped line break. -/
  joined : Bool

/-- Puts a character that is written with `n` characters in front of a piece. -/
def QuotedWord.cons (c : Char) (n : Nat) (w : QuotedWord) : QuotedWord :=
  ⟨c :: w.text, w.length + n, w.joined⟩

/-- Reads between single quotes up to the next spacing or the closing quote. -/
def singleQuotedWord : List Char → QuotedWord
  | '\'' :: '\'' :: rest => (singleQuotedWord rest).cons '\'' 2
  | c :: rest =>
    if isSpacing c ∨ c = '\'' then ⟨[], 0, false⟩ else (singleQuotedWord rest).cons c 1
  | [] => ⟨[], 0, false⟩

/-- Reads between double quotes up to the next spacing, an escaped line break or the closing
quote. -/
def doubleQuotedWord (cs : List Char) : Option QuotedWord :=
  match cs with
  | [] => some ⟨[], 0, false⟩
  | c :: rest =>
    if isSpacing c ∨ c = '"' then some ⟨[], 0, false⟩
    else if c ≠ '\\' then (doubleQuotedWord rest).map (·.cons c 1)
    else
      match backslash? rest with
      | some (.char meant n) => (doubleQuotedWord (rest.drop n)).map (·.cons meant (n + 1))
      | some (.lineBreak n) => some ⟨[], n + 1, true⟩
      | none => none
termination_by cs.length
decreasing_by all_goals (simp only [List.length_drop, List.length_cons]; omega)

/-- Reads a quoted scalar from behind its opening quote on, and gives the place behind its
closing quote. -/
def readQuoted (single : Bool) (c : Cursor) : Option (List Char × Cursor) :=
  if c.atMarker || c.rest.isEmpty then none
  else
    match if single then some (singleQuotedWord c.rest) else doubleQuotedWord c.rest with
    | none => none
    | some word =>
      let d := c.advance word.length
      if d.sees (if single then '\'' else '"') then some (word.text, d.next)
      else
        let spacing := d.rest.takeWhile isSpacing
        let e := d.advance spacing.length
        let gap := if word.joined then breaks spacing else foldGap spacing
        if _ : e.rest.length < c.rest.length then
          (readQuoted single e).map fun r => (word.text ++ gap ++ r.1, r.2)
        else none
termination_by c.rest.length
decreasing_by assumption

end Stencil.Yaml
