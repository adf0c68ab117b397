import Stencil.Value

/-!
# Frames

An expanded section puts a frame around its body. The frame of a loop says which value is
looped over and at which position the loop stands; the frame of a conditional section holds
the value that opened it. A frame shows three things: its element, its position in the loop,
and the list that is looped over.

A loop may be set up over any value and at any position. Where there is no item at the
position, the element is null; where the value is no list, there is no list to show.

## Main results

* `element_looped` — the element of a loop frame is the item at its position.
* `expand_array`, `expand_truthy`, `expand_falsy` — which frames a section opens, one after
  the other: one for each item of a list, one for any other true value, none for a false one.
-/

namespace Stencil

/-- The frame of an expanded section. -/
inductive Frame
  /-- The section shows its body once, for `value`. -/
  | conditional (value : Value)
  /-- The section loops over `source` and stands at `position`. -/
  | looped (source : Value) (position : Nat)

namespace Frame

/-- The frame that stands in where there is none. -/
def detached : Frame := .conditional .null

/-- The value that the body is shown for. -/
def element : Frame → Value
  | .conditional value => value
  | .looped (.array items) position => Value.ofOption items[position]?
  | .looped _ _ => .null

def index : Frame → Option Nat
  | .conditional _ => none
  | .looped _ position => some position

/-- The value that is looped over, whether it is a list or not. -/
def sourceValue : Frame → Option Value
  | .conditional _ => none
  | .looped source _ => some source

def source (frame : Frame) : Option (List Value) := frame.sourceValue.bind Value.items?

/-- Whether two frames have the same element, position and source. -/
def same : Frame → Frame → Bool
  | .conditional v, .conditional w => v.same w
  | .looped s m, .looped t n => m == n && s.same t
  | _, _ => false

/-- The frames that a section opens for the value of its driver, one after the other. -/
def expand : Value → List Frame
  | .array items => (List.range items.length).map (.looped (.array items))
  | v => if v.isTruthy then [.conditional v] else []

/-- The element of a loop over a list is the item at the position of the loop. -/
theorem element_looped {items : List Value} {position : Nat} {v : Value}
    (h : items[position]? = some v) : (looped (.array items) position).element = v := by
  simp [element, h, Value.ofOption]

/-- A list opens one frame for each of its items. -/
theorem expand_array (items : List Value) :
    expand (.array items) = (List.range items.length).map (.looped (.array items)) := rfl

/-- A true value that is no list opens one frame. -/
theorem expand_truthy {v : Value} (hlist : v.items? = none) (h : v.isTruthy) :
    expand v = [.conditional v] := by
  cases v with
  | array items => simp [Value.items?] at hlist
  | _ => simp [expand, h]

/-- A value that is not true opens no frame. -/
theorem expand_falsy {v : Value} (h : v.isTruthy = false) : expand v = [] := by
  cases v with
  | array items => simp [Value.isTruthy] at h
  | _ => simp [expand, h]

end Frame

end Stencil
