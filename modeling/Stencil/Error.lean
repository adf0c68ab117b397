import Stencil.Json.Message

/-!
# Template errors

A template is refused because its sections do not pair up, because it does not have one
fragment more than it has slots, or because its options cannot be read.
-/

namespace Stencil

/-- Why the text of render options is refused. -/
inductive OptionsFault
  | json (fault : Json.Fault)
  | yaml

/-- Why a template cannot be rendered. -/
inductive TemplateError
  /-- The section end at `position` has no start before it. -/
  | unmatchedEnd (position : Nat)
  /-- The section start at `position` has no end after it. -/
  | unmatchedStart (position : Nat)
  /-- There is not one fragment more than there are slots. -/
  | arityMismatch (fragments slots : Nat)
  | options (fault : OptionsFault)

def OptionsFault.message : OptionsFault → String
  | .json fault => fault.message
  | .yaml => "the text is not a YAML mapping of render options"

def TemplateError.message : TemplateError → String
  | .unmatchedEnd position =>
    "end section at position " ++ Numeral.ofNat position ++ " has no start"
  | .unmatchedStart position =>
    "start section at position " ++ Numeral.ofNat position ++ " has no matching end"
  | .arityMismatch fragments slots =>
    "template has " ++ Numeral.ofNat fragments ++ " fragments and " ++ Numeral.ofNat slots ++
      " slots; expected " ++ Numeral.ofNat (slots + 1) ++ " fragments"
  | .options fault => "invalid render options: " ++ fault.message

end Stencil
