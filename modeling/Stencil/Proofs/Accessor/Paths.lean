import Stencil.Accessor
import Stencil.Proofs.Segment.Names

/-!
# Dotted paths

A dotted path is short for one segment after the other. It is split at its points, and what is
empty between two points, or before the first or behind the last, is left out. So a path goes
through its parts in turn wherever it is cut at a point, and to go through some names one may join
them by points as long as they have no points of their own.

## Main results

* `evaluate_path_eq_descend?` — what a path finds; nothing from the first name on that finds
  nothing.
* `path_descends` — paths and single segments.
-/

namespace Stencil

namespace Accessor

/-- A path of two parts is a path behind a path. -/
theorem path_append (a : Accessor) (p q : String) :
    a.path (p ++ "." ++ q) = (a.path p).path q := by
  unfold path
  rw [Segment.keys_append_point, List.foldl_append]

/-- A path of joined names goes through the names. -/
theorem path_intercalate (a : Accessor) {names : List String}
    (h : ∀ name ∈ names, name ≠ "" ∧ '.' ∉ name.toList) :
    a.path (".".intercalate names) = names.foldl field a := by
  unfold path
  rw [← Segment.join_eq_intercalate, Segment.keys_join h]

theorem evaluate_path_eq_descend? (a : Accessor) (text : String) (scope : Scope) :
    (a.path text).evaluate scope =
      Value.ofOption (Segment.descend? (a.evaluate scope) (Segment.keys text)) := by
  rw [evaluate_path, Segment.foldl_lookup_eq_descend?]

/-- A position is as good as a path of its numeral. -/
theorem evaluate_path_ofNat (a : Accessor) {n : Nat} (hFits : n < 2 ^ 64) (scope : Scope) :
    (a.path (Numeral.ofNat n)).evaluate scope = (a.nth n).evaluate scope := by
  have hPath : a.path (Numeral.ofNat n) = a.field (Numeral.ofNat n) := by
    rw [path, Segment.keys_ofNat, List.foldl_cons, List.foldl_nil]
  rw [hPath, field, nth, evaluate, evaluate, Segment.lookup_key_ofNat hFits]

/-- **Dotted paths.** A path that is cut at a point is the path behind the point on top of the one
before it. It finds what the nonempty pieces between its points find one after the other, and null
from the first of them on that finds nothing. A path that is joined from nonempty names without
points goes through these names. A path of the written numeral of a position finds what the
position finds. -/
theorem path_descends (a : Accessor) :
    (∀ p q, a.path (p ++ "." ++ q) = (a.path p).path q) ∧
      (∀ p scope, (a.path p).evaluate scope =
        Value.ofOption (Segment.descend? (a.evaluate scope)
          (((p.toList.splitOn '.').filter (· ≠ [])).map String.ofList))) ∧
      (∀ names : List String, (∀ name ∈ names, name ≠ "" ∧ '.' ∉ name.toList) →
        a.path (".".intercalate names) = names.foldl field a) ∧
      ∀ n < 2 ^ 64, ∀ scope,
        (a.nth n).evaluate scope = (a.path (Numeral.ofNat n)).evaluate scope := by
  refine ⟨path_append a, fun p scope => ?_, fun names h => path_intercalate a h,
    fun n hFits scope => (evaluate_path_ofNat a hFits scope).symm⟩
  rw [evaluate_path_eq_descend?, Segment.keys_eq_splitOn]

/-- A path of a name and a numeral, and the position in what the name finds. -/
theorem path_descends_nameAndNumeral :
    (∀ name ∈ ["rows", "1"], name ≠ "" ∧ '.' ∉ name.toList) ∧
      item.path (".".intercalate ["rows", "1"]) = (item.field "rows").field "1" ∧
      1 < 2 ^ 64 ∧
      ((item.field "rows").path (Numeral.ofNat 1)).evaluate
          (Scope.ofFrames [.conditional (.object [("rows", .array [.null, .string "b"])])]) =
        .string "b" := by
  have hNames : ∀ name ∈ ["rows", "1"], name ≠ "" ∧ '.' ∉ name.toList := by decide
  obtain ⟨-, -, hJoined, -⟩ := path_descends item
  obtain ⟨-, -, -, hNumeral⟩ := path_descends (item.field "rows")
  refine ⟨hNames, hJoined _ hNames, by decide, ?_⟩
  rw [← hNumeral 1 (by decide)]
  rfl

end Accessor

end Stencil
