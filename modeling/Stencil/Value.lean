import Stencil.Binary64

/-!
# Data values

Templates show and loop over plain data: null, truth values, numbers, strings, lists and
records. Null also stands for whatever is absent, such as a missing member or a position
past the end of a list.

A number is an integer of 64 bits, with or without a sign, or a finite binary floating-point
number. The two are different values even where they are equal in size: `2` is not `2.0`.

The members of an object have no order of their own. They are kept sorted by name, in the
order of code points, with each name at most once; `Members.insert` keeps that order, so two
objects with the same members are equal.

## Main results

* `Members.find?_insert_self`, `Members.find?_insert_ne` — inserting a member changes what is
  found under its name and nothing else, so the last of several members of one name counts.
-/

namespace Stencil

/-- Whether an integer has 64 bits, with a sign if it is negative. -/
def Number.Fits (n : Int) : Prop :=
  -(Binary64.twoPow 63 : Int) ≤ n ∧ n < (Binary64.twoPow 64 : Int)

instance (n : Int) : Decidable (Number.Fits n) := inferInstanceAs (Decidable (_ ∧ _))

/-- A number: an integer of 64 bits, or a finite binary floating-point number. -/
inductive Number
  | integer (n : Int) {fits : Number.Fits n}
  | float (x : Binary64)
  deriving DecidableEq

/-- A piece of template data. -/
inductive Value
  | null
  | bool (b : Bool)
  | number (n : Number)
  | string (s : String)
  | array (items : List Value)
  | object (members : List (String × Value))

namespace Number

/-- Whether two numbers are the same datum. An integer never equals a float; two floats are
compared by value, so both zeros are the same. -/
def same : Number → Number → Bool
  | .integer m, .integer n => m == n
  | .float x, .float y => x.sameValue y
  | _, _ => false

/-- The signed 64-bit integer that an integer is cut down to; most are what they were before. -/
def ofInt (n : Int) : Number :=
  @integer (n.bmod (Binary64.twoPow 64)) (by
    have hTwice : Binary64.twoPow 64 = 2 * Binary64.twoPow 63 := by decide
    have hLower := Int.le_bmod (x := n) (Binary64.twoPow_pos 64)
    have hUpper := Int.bmod_lt (x := n) (Binary64.twoPow_pos 64)
    constructor <;> omega)

/-- The 64-bit integer without a sign that a position is cut down to. -/
def ofNat (n : Nat) : Number :=
  @integer (n % Binary64.twoPow 64 : Nat) (by
    have hUpper := Nat.mod_lt n (Binary64.twoPow_pos 64)
    constructor <;> omega)

/-- The float nearest to a number. There is none beyond the greatest finite float. -/
def nearest? : Number → Option Binary64
  | .integer n => Binary64.ofInt? n
  | .float x => some x

end Number

/-! ## Members of an object -/

namespace Members

/-- The value stored under `name`. -/
def find? (name : String) : List (String × Value) → Option Value
  | [] => none
  | (k, v) :: rest => if k = name then some v else find? name rest

/-- Stores `value` under `name`, in its place among the sorted names; a value already stored
there is replaced. -/
def insert (name : String) (value : Value) :
    List (String × Value) → List (String × Value)
  | [] => [(name, value)]
  | (k, v) :: rest =>
    if k = name then (name, value) :: rest
    else if name < k then (name, value) :: (k, v) :: rest
    else (k, v) :: insert name value rest

/-- The members of a list in which the last of several of one name counts. -/
def ofList (members : List (String × Value)) : List (String × Value) :=
  members.foldl (fun sorted m => insert m.1 m.2 sorted) []

/-- What was just stored under a name is found there. -/
theorem find?_insert_self (name : String) (value : Value)
    (members : List (String × Value)) :
    find? name (insert name value members) = some value := by
  induction members with
  | nil => simp [insert, find?]
  | cons m rest ih =>
    obtain ⟨k, v⟩ := m
    unfold insert
    split
    · simp [find?]
    · split
      · simp [find?]
      · rename_i hne _
        simp [find?, hne, ih]

/-- Storing a member leaves the others as they are. -/
theorem find?_insert_ne {name other : String} (h : other ≠ name) (value : Value)
    (members : List (String × Value)) :
    find? other (insert name value members) = find? other members := by
  induction members with
  | nil => simp [insert, find?, Ne.symm h]
  | cons m rest ih =>
    obtain ⟨k, v⟩ := m
    unfold insert
    split
    · rename_i hk
      subst hk
      simp [find?, Ne.symm h]
    · split
      · simp [find?, Ne.symm h]
      · simp [find?, ih]

end Members

namespace Value

/-- The object with the given members; the last of several of one name counts. -/
def ofMembers (members : List (String × Value)) : Value := .object (Members.ofList members)

def ofInt (n : Int) : Value := .number (Number.ofInt n)

/-- A position as data. -/
def ofNat (n : Nat) : Value := .number (Number.ofNat n)

/-- Data that may be absent; what is absent is null. -/
def ofOption : Option Value → Value
  | some v => v
  | none => .null

/-! ## Sameness -/

mutual

/-- Whether two values are the same data: equal in every part, with numbers compared by
`Number.same`. -/
def same : Value → Value → Bool
  | .null, .null => true
  | .bool a, .bool b => a == b
  | .number m, .number n => m.same n
  | .string s, .string t => s == t
  | .array xs, .array ys => sameItems xs ys
  | .object xs, .object ys => sameMembers xs ys
  | _, _ => false

/-- `Value.same`, item by item. -/
def sameItems : List Value → List Value → Bool
  | [], [] => true
  | x :: xs, y :: ys => same x y && sameItems xs ys
  | _, _ => false

/-- `Value.same`, member by member. -/
def sameMembers : List (String × Value) → List (String × Value) → Bool
  | [], [] => true
  | (k, x) :: xs, (l, y) :: ys => k == l && same x y && sameMembers xs ys
  | _, _ => false

end

/-! ## Truth -/

/-- Whether a value counts as true. Null, `false`, the empty string and a number without a
nearest float other than zero do not; lists and objects do, even empty ones. -/
def isTruthy : Value → Bool
  | .null => false
  | .bool b => b
  | .number n => n.nearest?.any fun x => !x.isZero
  | .string s => !s.isEmpty
  | .array _ => true
  | .object _ => true

/-- The items of a list; any other value has none to give. -/
def items? : Value → Option (List Value)
  | .array items => some items
  | _ => none

end Value

end Stencil
