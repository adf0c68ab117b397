import Stencil.Json.Fault
import Stencil.Numeral
import Stencil.Text.Escaped

/-!
# Messages for faults in JSON texts

The message of a fault names its cause and ends in its position.
-/

namespace Stencil.Json

def Unfinished.text : Unfinished → String
  | .value => "a value"
  | .string => "a string"
  | .list => "a list"
  | .object => "an object"

def Found.text : Found → String
  | .null => "null"
  | .bool b => "boolean `" ++ (if b then "true" else "false") ++ "`"
  | .integer n => "integer `" ++ Numeral.ofInt n ++ "`"
  | .float digits => "floating point `" ++ digits ++ "`"
  | .string s => "string " ++ Text.escaped s
  | .list => "sequence"
  | .object => "map"

def Cause.text : Cause → String
  | .unfinished what => "EOF while parsing " ++ what.text
  | .noColon => "expected `:`"
  | .noListSeparator => "expected `,` or `]`"
  | .noObjectSeparator => "expected `,` or `\x7d`"
  | .unknownWord => "expected ident"
  | .noValue => "expected value"
  | .badEscape => "invalid escape"
  | .badNumber => "invalid number"
  | .numberOutOfRange => "number out of range"
  | .controlCharacter =>
    "control character (\\u0000-\\u001F) found while parsing a string"
  | .keyNotString => "key must be a string"
  | .loneSurrogate => "lone leading surrogate in hex escape"
  | .unpairedEscape => "unexpected end of hex escape"
  | .trailingComma => "trailing comma"
  | .trailingText => "trailing characters"
  | .wrongKind found expected => "invalid type: " ++ found.text ++ ", expected " ++ expected
  | .repeatedMember name => "duplicate field `" ++ name ++ "`"

def Fault.message (fault : Fault) : String :=
  fault.cause.text ++ " at line " ++ Numeral.ofNat fault.position.line ++
    " column " ++ Numeral.ofNat fault.position.column

end Stencil.Json
