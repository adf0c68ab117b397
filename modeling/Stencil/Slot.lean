import Stencil.Accessor

/-!
# Slots

A slot is a place between two fragments of literal text. It shows a value, shows what an
accessor finds, opens a section, or closes one. A section is driven by a literal value or by
an accessor.

## Main results

* `isMarker_iff` — which kinds of slots are markers.
* `kind_eq_sectionStart_iff`, `kind_eq_sectionEnd_iff` — which slots open and close sections.
-/

namespace Stencil

/-- What a section is driven by. -/
inductive Driver
  | value (v : Value)
  | accessor (a : Accessor)

/-- A place between two fragments of literal text. -/
inductive Slot
  /-- Shows a value. -/
  | direct (v : Value)
  /-- Opens a section. -/
  | opening (driver : Driver)
  /-- Closes the innermost open section. -/
  | closing
  /-- Shows what an accessor finds. -/
  | accessor (a : Accessor)

/-- What a slot does, whatever its data. -/
inductive SlotKind
  | direct
  | sectionStart
  | sectionEnd
  | accessor
  deriving DecidableEq

/-- The value that drives a section at a place with the given frames around it. -/
def Driver.evaluate : Driver → Scope → Value
  | .value v, _ => v
  | .accessor a, scope => a.evaluate scope

/-- Whether a slot of this kind only marks the bounds of a section. -/
def SlotKind.isMarker : SlotKind → Bool
  | .sectionStart => true
  | .sectionEnd => true
  | .direct => false
  | .accessor => false

/-- Markers are the starts and the ends of sections. -/
theorem SlotKind.isMarker_iff {kind : SlotKind} :
    kind.isMarker = true ↔ kind = .sectionStart ∨ kind = .sectionEnd := by
  cases kind <;> decide

namespace Slot

/-- What a slot does. -/
def kind : Slot → SlotKind
  | .direct _ => .direct
  | .opening _ => .sectionStart
  | .closing => .sectionEnd
  | .accessor _ => .accessor

/-- The slot that a bare value stands for. An object with a single member opens a section
driven by the value of that member; an empty object, and one whose single member is null,
closes a section; every other value is shown. -/
def ofValue : Value → Slot
  | .object [] => .closing
  | .object [(_, .null)] => .closing
  | .object [(_, v)] => .opening (.value v)
  | v => .direct v

/-- The slots that open a section. -/
theorem kind_eq_sectionStart_iff (slot : Slot) :
    slot.kind = .sectionStart ↔ ∃ driver, slot = .opening driver := by
  cases slot <;> simp [kind]

/-- The slots that close a section. -/
theorem kind_eq_sectionEnd_iff (slot : Slot) : slot.kind = .sectionEnd ↔ slot = .closing := by
  cases slot <;> simp [kind]

end Slot

end Stencil
