import Stencil.Error
import Stencil.Json.Data
import Stencil.Json.Skip
import Stencil.Options
import Stencil.Value.Text

/-!
# Render options in JSON

Render options are written as an object with the members `collapse_marker_lines`, a truth
value, and `undefined`, a string. Either may be missing and then has its default; each may
stand only once. Members of any other name are read over. A list of up to two entries, the
two options in that order, is read as well.
-/

namespace Stencil.RenderOptions

open Json

/-- The name of the member for `collapseMarkerLines`. -/
def collapseName : String := "collapse_marker_lines"

/-- The name of the member for `placeholder`. -/
def placeholderName : String := "undefined"

/-- The fault of a value of the wrong kind, in place of the `expected` one. A value without
brackets is read first, and the fault is placed behind it; brackets are not entered. -/
def wrongKind (expected : String) (c : Cursor) : Fault :=
  match c.rest with
  | [] => c.here (.unfinished .value)
  | ch :: _ =>
    if ch = '[' then c.here (.wrongKind .list expected)
    else if ch = '\x7b' then c.here (.wrongKind .object expected)
    else
      match Cursor.readScalar ch c with
      | .error e => e
      | .ok (v, n) =>
        let found := match v with
          | .bool b => .bool b
          | .string s => .string s
          | .number (.integer n) => .integer n
          | .number (.float x) => .float x.text
          | _ => .null
        (c.advance (n + 1)).here (.wrongKind found expected)

def readBool (c : Cursor) : Except Fault (Bool × Nat) :=
  let d := c.skipBlanks
  match d.rest with
  | [] => .error (d.here (.unfinished .value))
  | ch :: _ =>
    if ch = 't' ∨ ch = 'f' then
      (Cursor.readScalar ch d).map fun r => (ch == 't', c.blanks + 1 + r.2)
    else .error (wrongKind "a boolean" d)

def readText (c : Cursor) : Except Fault (String × Nat) :=
  let d := c.skipBlanks
  match d.rest with
  | [] => .error (d.here (.unfinished .value))
  | ch :: _ =>
    if ch = '"' then d.readString.map fun r => (r.1, c.blanks + r.2)
    else .error (wrongKind "a string" d)

/-! ## Members -/

/-- The options read so far; none where a member has not been met. -/
structure Seen where
  collapse? : Option Bool := none
  placeholder? : Option String := none

/-- The options, with defaults for members that were not met. -/
def Seen.complete (p : Seen) : RenderOptions :=
  ⟨p.collapse?.getD false, p.placeholder?.getD ""⟩

/-- Whether a member of this name has been met. -/
def Seen.has (p : Seen) (name : String) : Bool :=
  (name == collapseName && p.collapse?.isSome) ||
    (name == placeholderName && p.placeholder?.isSome)

/-- Reads the value of the member `name` and takes it over, or reads over it. -/
def readMember (p : Seen) (name : String) (c : Cursor) : Except Fault (Seen × Nat) :=
  if name = collapseName then
    (readBool c).map fun r => (⟨some r.1, p.placeholder?⟩, r.2)
  else if name = placeholderName then
    (readText c).map fun r => (⟨p.collapse?, some r.1⟩, r.2)
  else
    c.skipValue.map fun n => (p, n)

/-- The fault of a member that stands for the second time, found behind its name. If the
object is closed there, the fault is placed behind the closing bracket. -/
def repeated (name : String) (c : Cursor) : Fault :=
  let d := c.skipBlanks
  match d.rest with
  | '\x7d' :: _ => (d.advance 1).here (.repeatedMember name)
  | _ => d.here (.repeatedMember name)

/-- Reads the members of an object, up to and including its closing bracket. -/
def readMembers (first : Bool) (p : Seen) (c : Cursor) :
    Except Fault (RenderOptions × Nat) :=
  match _ : Cursor.nextMember first c with
  | .error e => .error e
  | .ok (.closed n) => .ok (p.complete, n)
  | .ok (.entry n) =>
    match (c.advance n).readString with
    | .error e => .error e
    | .ok (name, m) =>
      if p.has name then .error (repeated name (c.advance (n + m)))
      else
        match (c.advance (n + m)).readColon with
        | .error e => .error e
        | .ok colon =>
          match readMember p name (c.advance (n + m + colon)) with
          | .error e => .error e
          | .ok (q, l) =>
            (readMembers false q (c.advance (n + m + colon + l))).map fun r =>
              (r.1, n + m + colon + l + r.2)
termination_by 2 * c.rest.length + (if first then 1 else 0)
decreasing_by
  simp only [Cursor.rest_advance, List.length_drop, if_false]
  cases first with
  | true => simp only [if_true]; omega
  | false =>
    have := Cursor.entry_of_nextMember ‹_›
    omega

/-! ## Entries of a list -/

/-- Reads an entry of a list, or gives the default and no characters if the list ends before
it. -/
def readEntry {α : Type} (first : Bool) (default : α) (read : Cursor → Except Fault (α × Nat))
    (c : Cursor) : Except Fault (α × Nat) :=
  match Cursor.nextItem first c with
  | .error e => .error e
  | .ok (.closed _) => .ok (default, 0)
  | .ok (.entry n) => (read (c.advance n)).map fun r => (r.1, n + r.2)

/-- Reads the end of a list of which no further entry is wanted. -/
def readListEnd (c : Cursor) : Except Fault Nat :=
  let d := c.skipBlanks
  match d.rest with
  | [] => .error (d.here (.unfinished .list))
  | ']' :: _ => .ok (c.blanks + 1)
  | ',' :: _ =>
    let e := (d.advance 1).skipBlanks
    match e.rest with
    | ']' :: _ => .error (e.ahead .trailingComma)
    | _ => .error (e.ahead .trailingText)
  | _ => .error (d.ahead .trailingText)

/-- Reads a list of up to two options, from behind its opening bracket on. -/
def readEntries (c : Cursor) : Except Fault (RenderOptions × Nat) :=
  match readEntry true false readBool c with
  | .error e => .error e
  | .ok (collapse, n) =>
    match readEntry (n == 0) "" readText (c.advance n) with
    | .error e => .error e
    | .ok (placeholder, m) =>
      (readListEnd (c.advance (n + m))).map fun k => (⟨collapse, placeholder⟩, n + m + k)

/-! ## Options -/

def readOptions (c : Cursor) : Except Fault (RenderOptions × Nat) :=
  let d := c.skipBlanks
  match d.rest with
  | [] => .error (d.here (.unfinished .value))
  | ch :: _ =>
    if ch = '[' then (readEntries (d.advance 1)).map fun r => (r.1, c.blanks + 1 + r.2)
    else if ch = '\x7b' then
      (readMembers true {} (d.advance 1)).map fun r => (r.1, c.blanks + 1 + r.2)
    else .error (wrongKind "struct RenderOptions" d)

/-- The options that a JSON text gives. -/
def ofJson (text : String) : Except TemplateError RenderOptions :=
  let c := Cursor.ofString text
  match readOptions c with
  | .error e => .error (.options (.json e))
  | .ok (options, n) =>
    match (c.advance n).readEnd with
    | .error e => .error (.options (.json e))
    | .ok () => .ok options

end Stencil.RenderOptions
