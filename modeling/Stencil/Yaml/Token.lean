import Stencil.Yaml.Tag

/-!
# Tokens

The tokens of a YAML text are its marks, names and scalars, and in addition the starts and
ends of block collections, which are not written but follow from the indentation.
-/

namespace Stencil.Yaml

/-- How a scalar is written. -/
inductive Style
  | plain
  | singleQuoted
  | doubleQuoted
  | literal
  | folded
  deriving DecidableEq

/-- A token of a text. -/
inductive Token
  /-- A directive in front of a document. -/
  | directive (d : Directive)
  /-- Three hyphens. -/
  | documentStart
  /-- Three points. -/
  | documentEnd
  /-- The end of the text. -/
  | streamEnd
  /-- The start of an indented sequence. -/
  | blockSequence
  /-- The start of an indented mapping. -/
  | blockMapping
  /-- The end of an indented collection. -/
  | blockEnd
  /-- An opening square bracket. -/
  | flowSequence
  /-- A closing square bracket. -/
  | flowSequenceEnd
  /-- An opening brace. -/
  | flowMapping
  /-- A closing brace. -/
  | flowMappingEnd
  /-- A hyphen in front of an item. -/
  | item
  /-- A comma. -/
  | comma
  /-- The place in front of a key, with or without a question mark. -/
  | key
  /-- A colon in front of a value. -/
  | value
  /-- A reference to an anchored node. -/
  | alias (name : List Char)
  /-- The name of the node that follows. -/
  | anchor (name : List Char)
  /-- The tag of the node that follows. -/
  | tag (t : TagName)
  | scalar (style : Style) (text : List Char)

end Stencil.Yaml
