import Stencil.Error
import Stencil.Options
import Stencil.Options.Json
import Stencil.Yaml.Document

/-!
# Render options in YAML

Render options are written as a mapping with the keys `collapse_marker_lines` and
`undefined`. Either may be missing and then has its default; each may stand only once. Other
keys are allowed and their values do not count, but every key has to be a scalar.

A truth value is a plain `true` or `false` in lower case, in upper case or capitalised, or a
literal block scalar with the tag of truth values. Every scalar is a string, whatever it
looks like.
-/

namespace Stencil.RenderOptions

open Yaml

/-- The octets of the tag of truth values. -/
def boolTag : List Nat := "tag:yaml.org,2002:bool".toList.map Char.toNat

/-- The truth value that a text stands for. -/
def boolOfText? (text : List Char) : Option Bool :=
  if ["true", "True", "TRUE"].contains (String.ofList text) then some true
  else if ["false", "False", "FALSE"].contains (String.ofList text) then some false
  else none

/-- The truth value that a node stands for. -/
def boolOfNode? : Node → Option Bool
  | .scalar _ .plain text => boolOfText? text
  | .scalar properties .literal text =>
    if properties.tag = some boolTag then boolOfText? text else none
  | _ => none

/-- The string that a node stands for. -/
def textOfNode? : Node → Option String
  | .scalar _ _ text => some (String.ofList text)
  | _ => none

/-- Takes over the option that a pair of nodes gives. -/
def takePair? (seen : Seen) (pair : Node × Node) : Option Seen := do
  let name ← textOfNode? pair.1
  if seen.has name then none
  else if name = collapseName then
    pure ⟨some (← boolOfNode? pair.2), seen.placeholder?⟩
  else if name = placeholderName then
    pure ⟨seen.collapse?, some (← textOfNode? pair.2)⟩
  else pure seen

/-- The options that a YAML text gives. -/
def ofYaml (text : String) : Except TemplateError RenderOptions :=
  match (mapping? text).bind fun pairs => pairs.foldlM takePair? {} with
  | some seen => .ok seen.complete
  | none => .error (.options .yaml)

end Stencil.RenderOptions
