import Stencil.Text.Visible

/-!
# Escaped strings in messages

A message quotes a string so that nothing in it stays hidden: the quote, the backslash and
the usual control characters are written as escapes of one letter, and every character that
is not visible by its code in lower-case hexadecimal digits. All other characters stand for
themselves, single quotes included.
-/

namespace Stencil.Text

/-- The characters that stand for `c` in a quoted string of a message. -/
def escapeChar (c : Char) : List Char :=
  if c = '\x00' then ['\\', '0']
  else if c = '\t' then ['\\', 't']
  else if c = '\r' then ['\\', 'r']
  else if c = '\n' then ['\\', 'n']
  else if c = '"' then ['\\', '"']
  else if c = '\\' then ['\\', '\\']
  else if isVisible c then [c]
  else ['\\', 'u', '\x7b'] ++ Nat.toDigits 16 c.toNat ++ ['\x7d']

/-- A string as it is quoted in a message. -/
def escaped (s : String) : String :=
  String.ofList ('"' :: (s.toList.flatMap escapeChar ++ ['"']))

end Stencil.Text
