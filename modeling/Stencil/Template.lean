import Stencil.MarkerLines
import Stencil.Options
import Stencil.Proofs.Rendering.Walk

/-!
# Templates

A template is a list of slots between fragments of literal text, so it has one fragment more
than it has slots. It is built by appending text and slots in turn, or from its parts.

Before anything is rendered the parts are checked: first their number, then the pairing of
the sections. Options, data and accessors play no part in that check.

## Main results

* `Rendering.ofParts_eq_ok`, `Rendering.exists_ofParts` — what is rendered for parts that are
  not refused.
* `fragments_length` — a template has one fragment more than it has slots, so its parts are
  never refused for their number.
* `fromParts?_parts` — a template is given back by its parts.
-/

namespace Stencil

/-! ## Parts -/

/-- The literal text that is shown under the given options. -/
def shownFragments (fragments : List String) (slots : List Slot) (options : RenderOptions) :
    List String :=
  if options.collapseMarkerLines then MarkerLines.collapse fragments slots else fragments

theorem shownFragments_of_kept (fragments : List String) (slots : List Slot)
    {options : RenderOptions} (hKept : options.collapseMarkerLines = false) :
    shownFragments fragments slots options = fragments := by
  rw [shownFragments, hKept]
  rfl

/-- The options do not change the number of fragments. -/
theorem length_shownFragments (fragments : List String) (slots : List Slot)
    (options : RenderOptions) :
    (shownFragments fragments slots options).length = fragments.length := by
  unfold shownFragments
  split
  · exact MarkerLines.length_collapse fragments slots
  · rfl

/-- The rendering of fragments and slots under the given options, or the reason why they are
not a template. -/
def Rendering.ofParts (fragments : List String) (slots : List Slot)
    (options : RenderOptions) : Except TemplateError Rendering :=
  if hLength : fragments.length = slots.length + 1 then
    match hSlots : Section.ofSlots slots with
    | .error e => .error e
    | .ok sections =>
      .ok
        { fragments := shownFragments fragments slots options
          slots := slots
          sections := sections
          placeholder := options.placeholder
          length_fragments := (length_shownFragments fragments slots options).trans hLength
          ofSlots_eq := hSlots }
  else
    .error (.arityMismatch fragments.length slots.length)

/-- The text of a rendering outside every section. Every rendering has one. -/
def Rendering.toText (r : Rendering) : String :=
  (r.render Scope.empty).get (r.isSome_render Scope.empty)

theorem Rendering.toText_eq_iff {r : Rendering} {text : String} :
    r.toText = text ↔ r.render Scope.empty = some text :=
  ⟨fun h => h ▸ (Option.some_get _).symm, Option.get_of_eq_some _⟩

/-- The text of fragments and slots under the given options, or the reason why they are not
a template. -/
def renderParts (fragments : List String) (slots : List Slot) (options : RenderOptions) :
    Except TemplateError String :=
  (Rendering.ofParts fragments slots options).map Rendering.toText

/-- The rendering of parts that agree in number and whose sections pair up. -/
theorem Rendering.ofParts_eq_ok {fragments : List String} {slots : List Slot}
    {sections : SectionMap} (options : RenderOptions)
    (hLength : fragments.length = slots.length + 1)
    (hSlots : Section.ofSlots slots = .ok sections) :
    Rendering.ofParts fragments slots options =
      .ok
        { fragments := shownFragments fragments slots options
          slots := slots
          sections := sections
          placeholder := options.placeholder
          length_fragments := (length_shownFragments fragments slots options).trans hLength
          ofSlots_eq := hSlots } := by
  unfold Rendering.ofParts
  rw [dif_pos hLength]
  split
  · rename_i e he
    rw [hSlots] at he
    cases he
  · rename_i found hFound
    obtain rfl : found = sections := Except.ok.inj (hFound.symm.trans hSlots)
    rfl

/-- Such parts have a rendering, of the fragments that the options show. -/
theorem Rendering.exists_ofParts {fragments : List String} {slots : List Slot}
    {sections : SectionMap} (options : RenderOptions)
    (hLength : fragments.length = slots.length + 1)
    (hSlots : Section.ofSlots slots = .ok sections) :
    ∃ r, Rendering.ofParts fragments slots options = .ok r ∧
      r.fragments = shownFragments fragments slots options ∧ r.slots = slots ∧
      r.sections = sections ∧ r.placeholder = options.placeholder :=
  ⟨_, Rendering.ofParts_eq_ok options hLength hSlots, rfl, rfl, rfl, rfl⟩

/-- Slots between fragments of literal text. -/
structure Template where
  fragments : List String
  slots : List Slot
  /-- There is a fragment before each slot and one after the last. -/
  fragments_length : fragments.length = slots.length + 1

namespace Template

/-! ## Building -/

/-- The template of one fragment. -/
def new (first : String) : Template := ⟨[first], [], rfl⟩

/-- The template with the given parts, if their numbers agree. -/
def fromParts? (fragments : List String) (slots : List Slot) :
    Except TemplateError Template :=
  if h : fragments.length = slots.length + 1 then
    .ok ⟨fragments, slots, h⟩
  else
    .error (.arityMismatch fragments.length slots.length)

/-- A list with `text` appended to its last entry. -/
def appendToLast (text : String) : List String → List String
  | [] => []
  | [last] => [last ++ text]
  | first :: second :: rest => first :: appendToLast text (second :: rest)

theorem length_appendToLast (text : String) (fragments : List String) :
    (appendToLast text fragments).length = fragments.length := by
  induction fragments with
  | nil => rfl
  | cons first rest ih =>
    cases rest with
    | nil => rfl
    | cons second more => simpa [appendToLast] using ih

/-- Appends text after the last slot. -/
def text (t : Template) (text : String) : Template :=
  ⟨appendToLast text t.fragments, t.slots,
    by rw [length_appendToLast, t.fragments_length]⟩

def slot (t : Template) (slot : Slot) : Template :=
  ⟨t.fragments ++ [""], t.slots ++ [slot], by simp [t.fragments_length]⟩

def openSection (t : Template) (driver : Driver) : Template := t.slot (.opening driver)

def closeSection (t : Template) : Template := t.slot .closing

def accessor (t : Template) (a : Accessor) : Template := t.slot (.accessor a)

def value (t : Template) (v : Value) : Template := t.slot (.direct v)

/-! ## Rendering -/

/-- The text of a template under the given options. -/
def renderWith (t : Template) (options : RenderOptions) : Except TemplateError String :=
  renderParts t.fragments t.slots options

def render (t : Template) : Except TemplateError String := t.renderWith {}

theorem fromParts?_parts (t : Template) : fromParts? t.fragments t.slots = .ok t := by
  simp [fromParts?, t.fragments_length]

end Template

end Stencil
