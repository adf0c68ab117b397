import Stencil.Numeral
import Stencil.Value

/-!
# Path segments

A path descends through data one segment at a time. A segment is the name of a member or a
position in a list, and each kind also works on the other: a name that is the numeral of a
position finds the item at that position of a list, and a position finds the member of an
object whose name is its numeral.

## Main results

* `lookup_key_array` — what a name finds in a list.
* `keys_join` — splitting a dotted path into its keys undoes joining them.
-/

namespace Stencil

/-- One step of a path. -/
inductive Segment
  | key (name : String)
  | index (position : Nat)
  deriving DecidableEq

namespace Segment

/-- What a segment finds in a value, if anything. -/
def lookup : Segment → Value → Option Value
  | .key name, .object members => Members.find? name members
  | .key name, .array items => (Numeral.position? name).bind (items[·]?)
  | .index position, .array items => items[position]?
  | .index position, .object members => Members.find? (Numeral.ofNat position) members
  | _, _ => none

/-- The text of a segment in a path: a name after a point, a position in brackets. -/
def text : Segment → String
  | .key name => "." ++ name
  | .index position => "[" ++ Numeral.ofNat position ++ "]"

/-- A name finds the item of a list at the position that it is a numeral of. -/
theorem lookup_key_array {name : String} {n : Nat} (h : Numeral.position? name = some n)
    (items : List Value) : lookup (.key name) (.array items) = items[n]? := by
  simp [lookup, h]

/-! ## Dotted paths -/

/-- The pieces of a text between the points. There is always one more of them than there are
points, so some may be empty. -/
def pieces : List Char → List (List Char)
  | [] => [[]]
  | c :: rest =>
    if c = '.' then [] :: pieces rest
    else
      match pieces rest with
      | [] => [[c]]
      | piece :: more => (c :: piece) :: more

/-- The keys that a dotted path goes through; empty pieces are no keys. -/
def keys (path : String) : List String :=
  ((pieces path.toList).filter (· ≠ [])).map String.ofList

/-- A text is never without a piece. -/
theorem pieces_ne_nil (cs : List Char) : pieces cs ≠ [] := by
  cases cs with
  | nil => simp [pieces]
  | cons c rest =>
    unfold pieces
    split
    · simp
    · split <;> simp

/-- A text without points is one piece. -/
theorem pieces_of_no_point {cs : List Char} (h : '.' ∉ cs) : pieces cs = [cs] := by
  induction cs with
  | nil => rfl
  | cons c rest ih =>
    simp only [List.mem_cons, not_or] at h
    unfold pieces
    rw [if_neg (Ne.symm h.1), ih h.2]

/-- Before a point the pieces are those of the text before it, after the point those of the
text after it. -/
theorem pieces_append_point (cs ds : List Char) :
    pieces (cs ++ '.' :: ds) = pieces cs ++ pieces ds := by
  induction cs with
  | nil => simp [pieces]
  | cons c rest ih =>
    by_cases hc : c = '.'
    · simp [pieces, hc, ih]
    · simp only [List.cons_append, pieces, hc, if_false, ih]
      cases h : pieces rest with
      | nil => exact absurd h (pieces_ne_nil rest)
      | cons piece more => rfl

/-- A path of two parts goes through the keys of the first and then those of the second. -/
theorem keys_append_point (p q : String) : keys (p ++ "." ++ q) = keys p ++ keys q := by
  have h : (p ++ "." ++ q).toList = p.toList ++ '.' :: q.toList := by
    simp [String.toList_append]
  unfold keys
  rw [h, pieces_append_point]
  simp

/-- A nonempty name without points is a path of one key. -/
theorem keys_of_no_point {name : String} (hne : name ≠ "") (h : '.' ∉ name.toList) :
    keys name = [name] := by
  have hnil : name.toList ≠ [] := by simpa using hne
  simp [keys, pieces_of_no_point h, hnil]

/-- The keys of a path, joined by points. -/
def join : List String → String
  | [] => ""
  | [name] => name
  | name :: rest => name ++ "." ++ join rest

/-- Splitting a path undoes joining its keys. -/
theorem keys_join {names : List String}
    (h : ∀ name ∈ names, name ≠ "" ∧ '.' ∉ name.toList) : keys (join names) = names := by
  induction names with
  | nil => rfl
  | cons name rest ih =>
    have hname := h name (by simp)
    cases rest with
    | nil => exact keys_of_no_point hname.1 hname.2
    | cons other more =>
      rw [join, keys_append_point, ih fun n hn => h n (by simp [hn]),
        keys_of_no_point hname.1 hname.2]
      · rfl
      · simp

end Segment

end Stencil
