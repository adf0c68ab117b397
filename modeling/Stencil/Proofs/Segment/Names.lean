import Stencil.Proofs.Segment.Lookup

/-!
# The names of a dotted path

A dotted path is split at its points, and what is empty between two points, or before the first or
behind the last, is left out. The names that are left are looked up one after the other, each in
what the one before it has found.

## Main results

* `keys_eq_splitOn` — the names that a path goes through.
* `join_eq_intercalate`, `keys_ofNat` — names joined by points, and the numeral of a position.
* `foldl_lookup_eq_descend?` — a descent ends where a name finds nothing.
-/

namespace Stencil

namespace Segment

/-! ## Names of a path -/

theorem pieces_eq_splitOn (cs : List Char) : pieces cs = cs.splitOn '.' := by
  induction cs with
  | nil => rw [List.splitOn_nil, pieces]
  | cons c rest ih =>
      rw [List.splitOn_cons_eq_if_modifyHead, ← ih]
      by_cases hPoint : c = '.'
      · simp [pieces, hPoint]
      · rw [pieces, if_neg hPoint, if_neg (by simpa using hPoint)]
        cases hRest : pieces rest with
        | nil => exact absurd hRest (pieces_ne_nil rest)
        | cons piece more => rfl

/-- The names that a path goes through are its pieces between the points, the empty ones left
out. -/
theorem keys_eq_splitOn (text : String) :
    keys text = ((text.toList.splitOn '.').filter (· ≠ [])).map String.ofList := by
  rw [keys, pieces_eq_splitOn]

theorem join_eq_intercalate (names : List String) : join names = ".".intercalate names := by
  induction names with
  | nil => rfl
  | cons name rest ih =>
      cases rest with
      | nil => rw [join, String.intercalate_singleton]
      | cons other more =>
          rw [join, ih, String.intercalate_cons_cons]
          exact List.cons_ne_nil other more

/-- A written numeral is a path of one name. -/
theorem keys_ofNat (n : Nat) : keys (Numeral.ofNat n) = [Numeral.ofNat n] := by
  have hDigits := Numeral.digits_ofNat n
  apply keys_of_no_point
  · intro hEmpty
    exact hDigits.ne_nil (by rw [hEmpty]; rfl)
  · intro hPoint
    exact absurd (hDigits.isDigit '.' hPoint) (by decide)

/-! ## Descending -/

/-- What some names find one after the other, each in what the one before it has found. There is
nothing to find as soon as one of them finds nothing. -/
def descend? (v : Value) (names : List String) : Option Value :=
  names.foldlM (fun v name => lookup (.key name) v) v

theorem descend?_cons (v : Value) (name : String) (rest : List String) :
    descend? v (name :: rest) = (lookup (.key name) v).bind fun w => descend? w rest :=
  List.foldlM_cons

/-- From null on there is nothing but null. -/
theorem foldl_lookup_null (names : List String) :
    names.foldl (fun v name => Value.ofOption (lookup (.key name) v)) .null = .null := by
  induction names with
  | nil => rfl
  | cons name rest ih => exact ih

/-- It makes no difference whether a descent ends where a name finds nothing, or goes on from
null. -/
theorem foldl_lookup_eq_descend? (names : List String) (v : Value) :
    names.foldl (fun v name => Value.ofOption (lookup (.key name) v)) v =
      Value.ofOption (descend? v names) := by
  induction names generalizing v with
  | nil => rfl
  | cons name rest ih =>
      rw [List.foldl_cons, descend?_cons]
      cases lookup (.key name) v with
      | none => exact foldl_lookup_null rest
      | some w => exact ih w

end Segment

end Stencil
