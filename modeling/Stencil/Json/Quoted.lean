/-!
# Quoted strings

A string is written between double quotes. Inside, the quote, the backslash and the control
characters below U+0020 are escaped, five of the latter by a letter of their own and the
others by their code in four lower-case hexadecimal digits. Everything else stands for
itself, the solidus, U+007F and all characters beyond ASCII included.

## Main results

* `escape_eq_self_iff` — exactly the characters that need no escape stand for themselves.
-/

namespace Stencil.Json

/-- A control character as its code in four hexadecimal digits. -/
def escapeCode (c : Char) : List Char :=
  ['\\', 'u', '0', '0', Nat.digitChar (c.toNat / 16), Nat.digitChar (c.toNat % 16)]

/-- The characters that stand for `c` between quotes. -/
def escape (c : Char) : List Char :=
  if c = '"' then ['\\', '"']
  else if c = '\\' then ['\\', '\\']
  else if c = '\x08' then ['\\', 'b']
  else if c = '\t' then ['\\', 't']
  else if c = '\n' then ['\\', 'n']
  else if c = '\x0c' then ['\\', 'f']
  else if c = '\r' then ['\\', 'r']
  else if c.toNat < 0x20 then escapeCode c
  else [c]

/-- Whether a character stands for itself between quotes. -/
def isPlain (c : Char) : Bool := c ≠ '"' && c ≠ '\\' && 0x20 ≤ c.toNat

def quoteChars (cs : List Char) : List Char := '"' :: (cs.flatMap escape ++ ['"'])

/-- The quoted form of a string. -/
def quote (s : String) : String := String.ofList (quoteChars s.toList)

/-- Exactly the plain characters are written as themselves. -/
theorem escape_eq_self_iff (c : Char) : escape c = [c] ↔ isPlain c := by
  unfold escape isPlain
  repeat' split
  all_goals subst_vars
  all_goals try decide
  · rename_i h
    simp [escapeCode]
    omega
  · rename_i hquote hback _ _ _ _ _ h
    simp [hquote, hback]
    omega

end Stencil.Json
