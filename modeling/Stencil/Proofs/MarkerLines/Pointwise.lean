import Mathlib.Data.List.Basic
import Stencil.MarkerLines

/-!
# Marker lines one at a time

Collapsing goes through the slots in turn, and for each marker it may rewrite the fragment behind
it, and for the first slot the fragment in front of it as well. It reads nothing but the
fragments as they were written, and no marker writes where another has written. So what becomes
of a fragment can be said without any order: it depends on the slot in front of it and on the
fragment in front of that slot, and the first fragment on the first slot and the fragment behind.

## Main results

* `collapseAt_of_ownLine`, `collapseAt_of_not_ownLine` — what a single marker rewrites.
* `mapIdx_entry_concat` — one more slot, when the fragments stand as the slots in front leave
  them.
* `collapse_eq_pointwise` — what becomes of each fragment, for any fragments and slots.
-/

namespace Stencil.MarkerLines

/-! ## The rule for a single fragment -/

def StartsWithNewline (text : String) : Prop := text.toList.head? = some '\n'

def EndsWithNewline (text : String) : Prop := text.toList.getLast? = some '\n'

instance (text : String) : Decidable (StartsWithNewline text) :=
  inferInstanceAs (Decidable (_ = _))

instance (text : String) : Decidable (EndsWithNewline text) :=
  inferInstanceAs (Decidable (_ = _))

/-- A text without its first character. -/
def withoutFirst (text : String) : String := String.ofList text.toList.tail

/-- The place of slot `i` is a line of its own: the fragment behind it starts with a newline,
and the fragment in front of it ends with one or is the empty start of the template. -/
def OwnLine (fragments : List String) (i : Nat) : Prop :=
  (∃ behind ∈ fragments[i + 1]?, StartsWithNewline behind) ∧
    ∃ before ∈ fragments[i]?, EndsWithNewline before ∨ i = 0 ∧ before = ""

/-- Slot `i` is the start or the end of a section, on a line of its own. -/
def StandsAlone (fragments : List String) (slots : List Slot) (i : Nat) : Prop :=
  (∃ slot ∈ slots[i]?, slot.kind = .sectionStart ∨ slot.kind = .sectionEnd) ∧
    OwnLine fragments i

instance (fragments : List String) (i : Nat) : Decidable (OwnLine fragments i) :=
  inferInstanceAs (Decidable (_ ∧ _))

instance (fragments : List String) (slots : List Slot) (i : Nat) :
    Decidable (StandsAlone fragments slots i) :=
  inferInstanceAs (Decidable (_ ∧ _))

/-- What becomes of the fragment `text` at a position. Behind a marker that stands alone it loses
its first newline. The first fragment goes if it is nothing but a newline and the first slot
stands alone. -/
def entry (fragments : List String) (slots : List Slot) : Nat → String → String
  | 0, text => if text = "\n" ∧ StandsAlone fragments slots 0 then "" else text
  | i + 1, text => if StandsAlone fragments slots i then withoutFirst text else text

/-! ## One marker -/

theorem withoutNewline?_of_starts {text : String} (h : StartsWithNewline text) :
    withoutNewline? text = some (withoutFirst text) := by
  unfold StartsWithNewline at h
  unfold withoutNewline? withoutFirst
  cases hText : text.toList with
  | nil =>
      rw [hText] at h
      cases h
  | cons c rest =>
      rw [hText] at h
      obtain rfl := Option.some.inj h
      rfl

theorem withoutNewline?_of_not_starts {text : String} (h : ¬ StartsWithNewline text) :
    withoutNewline? text = none := by
  unfold withoutNewline?
  split
  · rename_i rest hText
    exact absurd (by rw [StartsWithNewline, hText]; rfl) h
  · rfl

theorem isLeading_newline_iff {i : Nat} {left : String} :
    (isLeading i left && left == "\n") = true ↔ i = 0 ∧ left = "\n" := by
  simp only [isLeading, Bool.and_eq_true, Bool.or_eq_true, beq_iff_eq]
  constructor
  · rintro ⟨⟨hi, -⟩, hLeft⟩
    exact ⟨hi, hLeft⟩
  · rintro ⟨hi, hLeft⟩
    exact ⟨⟨hi, .inr hLeft⟩, hLeft⟩

theorem startsLine_iff {i : Nat} {left : String} :
    startsLine i left = true ↔ EndsWithNewline left ∨ i = 0 ∧ left = "" := by
  simp only [startsLine, isLeading, EndsWithNewline, Bool.or_eq_true, Bool.and_eq_true,
    beq_iff_eq]
  constructor
  · rintro (⟨hi, hLeft | rfl⟩ | hEnds)
    · exact .inr ⟨hi, hLeft⟩
    · exact .inl rfl
    · exact .inl hEnds
  · rintro (hEnds | ⟨hi, hLeft⟩)
    · exact .inr hEnds
    · exact .inl ⟨hi, .inl hLeft⟩

variable {fragments : List String}

theorem set_eq_mapIdx (texts : List String) (i : Nat) (text : String) :
    texts.set i text = texts.mapIdx fun j old => if j = i then text else old := by
  apply List.ext_getElem?
  intro j
  rw [List.getElem?_set', List.getElem?_mapIdx]
  by_cases h : j = i
  · rw [if_pos h.symm]
    cases texts[j]? <;> simp [h]
  · rw [if_neg (Ne.symm h)]
    cases texts[j]? <;> simp [h]

/-- A marker on a line of its own rewrites the fragment behind it, and the first fragment if that
is a newline in front of the first slot. -/
theorem collapseAt_of_ownLine {i : Nat} (h : OwnLine fragments i) (out : List String) :
    ∃ behind, fragments[i + 1]? = some behind ∧
      collapseAt fragments i out = out.mapIdx fun j text =>
        if j = i + 1 then withoutFirst behind
        else if j = 0 ∧ i = 0 ∧ fragments[0]? = some "\n" then ""
        else text := by
  obtain ⟨⟨behind, hBehind, hStarts⟩, before, hBefore, hLine⟩ := h
  refine ⟨behind, hBehind, ?_⟩
  have hDrop : fragments[i + 1]?.bind withoutNewline? = some (withoutFirst behind) := by
    rw [hBehind, Option.bind_some, withoutNewline?_of_starts hStarts]
  have hFirst : (isLeading i before && before == "\n") = true ↔
      i = 0 ∧ fragments[0]? = some "\n" := by
    rw [isLeading_newline_iff]
    apply and_congr_right
    rintro rfl
    rw [hBefore, Option.some.injEq]
  unfold collapseAt
  rw [hBefore, hDrop]
  simp only [startsLine_iff.mpr hLine, if_true, hFirst, set_eq_mapIdx, List.mapIdx_mapIdx]
  split
  · rename_i hLeading
    obtain ⟨rfl, hNewline⟩ := hLeading
    congr
    funext j text
    simp only [Function.comp_apply, hNewline, and_true]
    split
    · rename_i hj
      simp [hj]
    · rfl
  · rename_i hLeading
    simp only [hLeading, and_false, if_false]

theorem collapseAt_of_not_ownLine {i : Nat} (h : ¬ OwnLine fragments i) (out : List String) :
    collapseAt fragments i out = out := by
  unfold collapseAt
  split
  · rename_i left rest hLeft hRest
    obtain ⟨behind, hBehind, hDrop⟩ := Option.bind_eq_some_iff.mp hRest
    split
    · rename_i hLine
      by_cases hStarts : StartsWithNewline behind
      · exact absurd ⟨⟨behind, hBehind, hStarts⟩, left, hLeft, startsLine_iff.mp hLine⟩ h
      · rw [withoutNewline?_of_not_starts hStarts] at hDrop
        cases hDrop
    · rfl
  · rfl

/-! ## All slots -/

variable {front : List Slot}

/-- One more slot decides about its own place and no other. -/
theorem standsAlone_concat {slot : Slot} {i : Nat} :
    StandsAlone fragments (front ++ [slot]) i ↔
      StandsAlone fragments front i ∨
        i = front.length ∧ (slot.kind = .sectionStart ∨ slot.kind = .sectionEnd) ∧
          OwnLine fragments i := by
  unfold StandsAlone
  rcases Nat.lt_trichotomy i front.length with hLt | rfl | hGt
  · rw [List.getElem?_append_left hLt]
    simp [Nat.ne_of_lt hLt]
  · simp
  · have hNone : (front ++ [slot])[i]? = none := by
      rw [List.getElem?_eq_none]
      simp
      omega
    rw [hNone, List.getElem?_eq_none (Nat.le_of_lt hGt)]
    simp
    omega

theorem not_standsAlone_length : ¬ StandsAlone fragments front front.length := by
  simp [StandsAlone]

theorem entry_congr {slots slots' : List Slot}
    (h : ∀ i, StandsAlone fragments slots i ↔ StandsAlone fragments slots' i) :
    entry fragments slots = entry fragments slots' := by
  funext j text
  cases j <;> simp only [entry, h]

theorem entry_nil (j : Nat) (text : String) : entry fragments [] j text = text := by
  cases j <;> simp [entry, StandsAlone]

/-- A marker on a line of its own changes the entry behind it, and the first entry if that is a
newline in front of the first slot. -/
theorem entry_concat_of_ownLine {slot : Slot}
    (hMarker : slot.kind = .sectionStart ∨ slot.kind = .sectionEnd)
    (hOwn : OwnLine fragments front.length) (j : Nat) (text : String) :
    entry fragments (front ++ [slot]) j text =
      if j = front.length + 1 then withoutFirst text
      else if j = 0 ∧ front.length = 0 ∧ text = "\n" then ""
      else entry fragments front j text := by
  cases j with
  | zero =>
      by_cases hFirst : front.length = 0
      · have hAlone : StandsAlone fragments (front ++ [slot]) 0 :=
          standsAlone_concat.mpr (.inr ⟨hFirst.symm, hMarker, hFirst ▸ hOwn⟩)
        have hNot : ¬ StandsAlone fragments front 0 := hFirst ▸ not_standsAlone_length
        simp [entry, hAlone, hNot, hFirst]
      · have hSame : StandsAlone fragments (front ++ [slot]) 0 ↔
            StandsAlone fragments front 0 := by
          rw [standsAlone_concat]
          exact or_iff_left fun h => hFirst h.1.symm
        simp [entry, hSame, hFirst]
  | succ i =>
      by_cases hHere : i = front.length
      · subst hHere
        have hAlone : StandsAlone fragments (front ++ [slot]) front.length :=
          standsAlone_concat.mpr (.inr ⟨rfl, hMarker, hOwn⟩)
        simp [entry, hAlone]
      · have hSame : StandsAlone fragments (front ++ [slot]) i ↔
            StandsAlone fragments front i := by
          rw [standsAlone_concat]
          exact or_iff_left fun h => hHere h.1
        simp [entry, hSame, hHere]

/-- **One more slot.** Where the fragments stand as the slots in front leave them, it rewrites
them as the rule says; what it reads and replaces has not been rewritten before. -/
theorem mapIdx_entry_concat (fragments : List String) (front : List Slot) (slot : Slot) :
    (if slot.kind.isMarker then
        collapseAt fragments front.length (fragments.mapIdx (entry fragments front))
      else fragments.mapIdx (entry fragments front)) =
      fragments.mapIdx (entry fragments (front ++ [slot])) := by
  by_cases hChange : (slot.kind = .sectionStart ∨ slot.kind = .sectionEnd) ∧
      OwnLine fragments front.length
  · obtain ⟨hMarker, hOwn⟩ := hChange
    obtain ⟨behind, hBehind, hCollapse⟩ :=
      collapseAt_of_ownLine hOwn (fragments.mapIdx (entry fragments front))
    rw [if_pos (SlotKind.isMarker_iff.mpr hMarker), hCollapse]
    rw [List.mapIdx_mapIdx, List.mapIdx_eq_mapIdx_iff]
    intro j hj
    rw [entry_concat_of_ownLine hMarker hOwn, Function.comp_apply]
    by_cases hNext : j = front.length + 1
    · have hText : fragments[j] = behind := by
        rw [← Option.some.injEq, ← List.getElem?_eq_getElem hj, hNext, hBehind]
      rw [if_pos hNext, if_pos hNext, hText]
    · rw [if_neg hNext, if_neg hNext]
      by_cases hZero : j = 0
      · subst hZero
        simp only [List.getElem?_eq_getElem hj, Option.some.injEq]
      · simp only [hZero, false_and, if_false]
  · have hSame : entry fragments (front ++ [slot]) = entry fragments front := by
      apply entry_congr
      intro i
      rw [standsAlone_concat]
      apply or_iff_left
      rintro ⟨rfl, h⟩
      exact hChange h
    rw [hSame]
    split
    · rename_i hMarker
      exact collapseAt_of_not_ownLine
        (fun hOwn => hChange ⟨SlotKind.isMarker_iff.mp hMarker, hOwn⟩) _
    · rfl

/-- The slots behind go on where the slots in front have stopped. -/
theorem collapseFrom_mapIdx_entry (fragments : List String) (front rest : List Slot) :
    collapseFrom fragments front.length (fragments.mapIdx (entry fragments front)) rest =
      fragments.mapIdx (entry fragments (front ++ rest)) := by
  induction rest generalizing front with
  | nil => rw [collapseFrom, List.append_nil]
  | cons slot rest ih =>
      have hNext := ih (front ++ [slot])
      rw [List.length_append, List.length_singleton, List.append_assoc,
        List.singleton_append] at hNext
      rw [collapseFrom, mapIdx_entry_concat]
      exact hNext

theorem collapse_eq_mapIdx (fragments : List String) (slots : List Slot) :
    collapse fragments slots = fragments.mapIdx (entry fragments slots) := by
  have hStart : fragments.mapIdx (entry fragments []) = fragments := by
    apply List.ext_getElem?
    intro j
    rw [List.getElem?_mapIdx]
    cases fragments[j]? with
    | none => rfl
    | some text => exact congrArg some (entry_nil j text)
  have hAll := collapseFrom_mapIdx_entry fragments [] slots
  rwa [hStart] at hAll

/-- A fragment loses nothing but a newline that it starts with. -/
theorem entry_eq_or {j : Nat} {text : String} (hText : fragments[j]? = some text)
    (slots : List Slot) :
    entry fragments slots j text = text ∨
      text.toList = '\n' :: (entry fragments slots j text).toList := by
  cases j with
  | zero =>
      by_cases hDropped : text = "\n" ∧ StandsAlone fragments slots 0
      · right
        rw [entry, if_pos hDropped, hDropped.1]
        rfl
      · exact .inl (if_neg hDropped)
  | succ i =>
      by_cases hAlone : StandsAlone fragments slots i
      · right
        obtain ⟨behind, hBehind, hStarts⟩ := hAlone.2.1
        obtain rfl := Option.some.inj (hText.symm.trans hBehind)
        rw [entry, if_pos hAlone, withoutFirst, String.toList_ofList]
        exact (List.cons_head?_tail hStarts).symm
      · exact .inl (if_neg hAlone)

/-- **Collapsing decides about each fragment by itself.** The outcome of the whole pass is the
rule for a single fragment, applied to each of them as they were written. So a fragment loses one
newline at most, and a slot that shows something changes neither the fragment behind it nor, at
the start of a template, the one in front of it. -/
theorem collapse_eq_pointwise (fragments : List String) (slots : List Slot) :
    collapse fragments slots = fragments.mapIdx (entry fragments slots) ∧
      (collapse fragments slots).length = fragments.length ∧
      (∀ (j : Nat) (text : String), fragments[j]? = some text →
        ∃ rest, (collapse fragments slots)[j]? = some rest ∧
          (rest = text ∨ text.toList = '\n' :: rest.toList)) ∧
      ∀ i slot, slots[i]? = some slot → (slot.kind = .direct ∨ slot.kind = .accessor) →
        (collapse fragments slots)[i + 1]? = fragments[i + 1]? ∧
          (i = 0 → (collapse fragments slots)[0]? = fragments[0]?) := by
  have hEq := collapse_eq_mapIdx fragments slots
  have hAt : ∀ j, (collapse fragments slots)[j]? =
      fragments[j]?.map (entry fragments slots j) := by
    intro j
    rw [hEq, List.getElem?_mapIdx]
  refine ⟨hEq, length_collapse fragments slots, fun j text hText => ?_,
    fun i slot hSlot hShows => ?_⟩
  · refine ⟨entry fragments slots j text, ?_, entry_eq_or hText slots⟩
    rw [hAt, hText, Option.map_some]
  · have hNot : ¬ StandsAlone fragments slots i := by
      rintro ⟨⟨other, hOther, hMarker⟩, -⟩
      obtain rfl := Option.some.inj (hSlot.symm.trans hOther)
      rcases hShows with hKind | hKind <;> simp [hKind] at hMarker
    constructor
    · rw [hAt]
      cases fragments[i + 1]? <;> simp [entry, hNot]
    · rintro rfl
      rw [hAt]
      cases fragments[0]? <;> simp [entry, hNot]

/-- The newlines behind the start and behind the end go, and the one behind the value stays. -/
theorem collapse_eq_pointwise_aroundValue :
    collapse ["A\n", "\n", "\n", "\nB"] [.opening (.value .null), .direct .null, .closing] =
        ["A\n", "", "\n", "B"] ∧
      [Slot.opening (.value .null), .direct .null, .closing][1]? = some (.direct .null) ∧
      (Slot.direct .null).kind = .direct ∧
      (collapse ["A\n", "\n", "\n", "\nB"]
        [.opening (.value .null), .direct .null, .closing])[2]? = some "\n" := by
  obtain ⟨hEq, -, -, hValue⟩ := collapse_eq_pointwise ["A\n", "\n", "\n", "\nB"]
    [.opening (.value .null), .direct .null, .closing]
  have hRule : ["A\n", "\n", "\n", "\nB"].mapIdx (entry ["A\n", "\n", "\n", "\nB"]
      [.opening (.value .null), .direct .null, .closing]) = ["A\n", "", "\n", "B"] := by
    decide
  exact ⟨hEq.trans hRule, rfl, rfl, (hValue 1 _ rfl (.inl rfl)).1⟩

/-- The fragment between two markers goes for the first of them, and still counts as the end of
a line for the second. -/
example : ["A\n", "\n", "\nB"].mapIdx
    (entry ["A\n", "\n", "\nB"] [.opening (.value .null), .closing]) = ["A\n", "", "B"] := by
  decide

end Stencil.MarkerLines
