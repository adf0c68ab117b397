import Stencil.Proofs.Rendering.Refusal
import Stencil.Proofs.Template.Joining
import Stencil.Proofs.Tree.Context
import Stencil.Proofs.Value.Numbers

/-!
# Cutting out skipped sections

A section that is driven by an empty list or by a value that is not true shows nothing. It can be
cut out of its template with all that stands inside it: the slots from its start to its end go,
and the fragments in front of it and behind it become one. All slots behind stand further in
front then, and so do the ends of the sections around; the text stays the same, wherever the
section stands and however often the loops around it are run.

## Main results

* `skips_value_iff` — the drivers of skipped sections: the empty list, null, `false`, the empty
  string and the zeros.
* `render_fill_of_skips` — in any surroundings a skipped section shows what the text in front
  of it and the rest show without it.
* `fragments_cut`, `slots_cut` — what is left of a template when a section is cut out.
* `cut_skipped_section` — a template and what is left of it have the same text.
-/

namespace Stencil

/-- The driver is a literal value that opens no frame: an empty list, or a value that is not
true. -/
def Driver.Skips : Driver → Prop
  | .value v => v = .array [] ∨ v.isTruthy = false
  | .accessor _ => False

/-- The literal drivers of skipped sections. -/
theorem Driver.skips_value_iff {v : Value} :
    (Driver.value v).Skips ↔
      v = .array [] ∨ v = .null ∨ v = .bool false ∨ v = .string "" ∨ v = .number (.ofInt 0) ∨
        ∃ negative, v = .number (.float (.zero negative)) :=
  or_congr_right Number.isTruthy_eq_false_iff

theorem Driver.expand_of_skips {driver : Driver} (h : driver.Skips) (scope : Scope) :
    Frame.expand (driver.evaluate scope) = [] := by
  cases driver with
  | value v =>
      rcases h with rfl | hFalsy
      · rfl
      · exact Frame.expand_falsy hFalsy
  | accessor a => exact h.elim

namespace Rendering

open Section Stencil.Tree

/-- The slots without those from `s` up to `e`. -/
def cutSlots (slots : List Slot) (s e : Nat) : List Slot := slots.take s ++ slots.drop (e + 1)

/-- The fragments without those from `s` up to `e + 1`. The first and the last of these stay, as
one. -/
def cutFragments (fragments : List String) (s e : Nat) : List String :=
  fragments.take s ++
    (fragments.getD s "" ++ fragments.getD (e + 1) "") :: fragments.drop (e + 2)

/-- What is in front of a section and what is behind it are joined at their ends. -/
theorem cutFragments_eq_joinEnds {fragments : List String} {s e : Nat} (hLe : s ≤ e)
    (hLt : e + 1 < fragments.length) :
    cutFragments fragments s e =
      joinEnds (fragments.take (s + 1)) (fragments.drop (e + 1)) := by
  have hStart : s < fragments.length := by omega
  rw [List.take_succ_eq_append_getElem hStart, List.drop_eq_getElem_cons hLt, joinEnds_concat,
    cutFragments, List.getElem_eq_getD "", List.getElem_eq_getD ""]

section Fill

variable {context : Context} {before : String} {driver : Driver} {body rest : Tree}

/-! ## Text -/

/-- A skipped section shows nothing, whatever its body. -/
theorem render_block_of_skips (h : driver.Skips) (placeholder : String) (scope : Scope) :
    (Tree.block before driver body rest).render placeholder scope =
      (rest.prepend before).render placeholder scope := by
  rw [render_block, Driver.expand_of_skips h, repeated, List.map_nil, String.join_nil,
    String.append_empty, render_prepend]

theorem render_fill_of_skips (h : driver.Skips) (context : Context) (placeholder : String)
    (scope : Scope) :
    (context.fill (.block before driver body rest)).render placeholder scope =
      (context.fill (rest.prepend before)).render placeholder scope :=
  Context.render_fill_congr (render_block_of_skips h placeholder) context scope

/-! ## Places -/

/-- The section that fills a gap, with its end behind its body. -/
theorem endOf_fill {sections : SectionMap}
    (h : ofSlots (context.fill (.block before driver body rest)).slots = .ok sections) :
    sections.endOf context.slotsBefore.length =
      some (context.slotsBefore.length + 1 + body.slots.length) := by
  obtain ⟨r, -, hFragments, hSlots, rfl, -⟩ :=
    exists_ofParts {} (context.fill (.block before driver body rest)).length_fragments h
  rw [shownFragments_of_kept _ _ rfl, Context.fragments_fill] at hFragments
  rw [Context.slots_fill] at hSlots
  have hAt : r.At (.block before driver body rest) context.slotsBefore.length := by
    constructor
    · rw [hFragments, ← context.length_textsBefore, List.drop_left]
      exact List.prefix_append _ _
    · rw [hSlots, List.drop_left]
      exact List.prefix_append _ _
  exact hAt.endOf

/-- The slots up to the start of a section that fills a gap, and those from its end on. -/
theorem slots_around (context : Context) (before : String) (driver : Driver) (body rest : Tree) :
    (context.fill (.block before driver body rest)).slots.take (context.slotsBefore.length + 1) =
        context.slotsBefore ++ [.opening driver] ∧
      (context.fill (.block before driver body rest)).slots.drop
          (context.slotsBefore.length + 1 + body.slots.length) =
        .closing :: (rest.slots ++ context.slotsBehind) := by
  have hSlots : (context.fill (.block before driver body rest)).slots =
      (context.slotsBefore ++ [.opening driver]) ++
        (body.slots ++ .closing :: (rest.slots ++ context.slotsBehind)) := by
    simp [Context.slots_fill, Tree.slots]
  have hCount : context.slotsBefore.length + 1 =
      (context.slotsBefore ++ [Slot.opening driver]).length := by simp
  constructor
  · rw [hSlots, hCount, List.take_left]
  · rw [hSlots, hCount, ← List.drop_drop, List.drop_left, List.drop_left]

/-- The fragments up to a section that fills a gap, and those from its end on. -/
theorem fragments_around (context : Context) (before : String) (driver : Driver)
    (body rest : Tree) :
    (context.fill (.block before driver body rest)).fragments.take
          (context.slotsBefore.length + 1) =
        context.textsBefore ++ [before] ∧
      (context.fill (.block before driver body rest)).fragments.drop
          (context.slotsBefore.length + 1 + body.slots.length + 1) =
        rest.fragments ++ context.textsBehind := by
  have hFragments : (context.fill (.block before driver body rest)).fragments =
      (context.textsBefore ++ [before]) ++
        (body.fragments ++ (rest.fragments ++ context.textsBehind)) := by
    simp [Context.fragments_fill, Tree.fragments]
  have hCount : context.slotsBefore.length + 1 = (context.textsBefore ++ [before]).length := by
    simp [context.length_textsBefore]
  constructor
  · rw [hFragments, hCount, List.take_left]
  · rw [hFragments, hCount, Nat.add_assoc, ← body.length_fragments, ← List.drop_drop,
      List.drop_left, List.drop_left]

theorem slots_cut (context : Context) (before : String) (driver : Driver) (body rest : Tree) :
    cutSlots (context.fill (.block before driver body rest)).slots context.slotsBefore.length
        (context.slotsBefore.length + 1 + body.slots.length) =
      (context.fill (rest.prepend before)).slots := by
  obtain ⟨-, hBehind⟩ := slots_around context before driver body rest
  have hTake : (context.fill (.block before driver body rest)).slots.take
      context.slotsBefore.length = context.slotsBefore := by
    rw [Context.slots_fill, List.take_left]
  rw [cutSlots, hTake, ← List.drop_drop, hBehind, Context.slots_fill, slots_prepend]
  rfl

theorem fragments_cut (context : Context) (before : String) (driver : Driver)
    (body rest : Tree) :
    cutFragments (context.fill (.block before driver body rest)).fragments
        context.slotsBefore.length (context.slotsBefore.length + 1 + body.slots.length) =
      (context.fill (rest.prepend before)).fragments := by
  obtain ⟨hFront, hBehind⟩ := fragments_around context before driver body rest
  have hJoined : (rest.prepend before).fragments = joinEnds [before] rest.fragments :=
    fragments_append (.text before) rest
  have hLt : context.slotsBefore.length + 1 + body.slots.length + 1 <
      (context.fill (.block before driver body rest)).fragments.length := by
    rw [Tree.length_fragments, Context.slots_fill]
    simp only [Tree.slots, List.length_append, List.length_cons]
    omega
  rw [cutFragments_eq_joinEnds (by omega) hLt, hFront, hBehind,
    joinEnds_append _ (List.cons_ne_nil before []), Context.fragments_fill, hJoined]
  cases rest <;> rfl

/-- Between the markers of a section any other tree can be written out. -/
theorem parts_replaced (context : Context) (before : String) (driver : Driver)
    (body rest other : Tree) :
    (context.fill (.block before driver body rest)).fragments.take
            (context.slotsBefore.length + 1) ++
          (other.fragments ++ (context.fill (.block before driver body rest)).fragments.drop
            (context.slotsBefore.length + 1 + body.slots.length + 1)) =
        (context.fill (.block before driver other rest)).fragments ∧
      (context.fill (.block before driver body rest)).slots.take
            (context.slotsBefore.length + 1) ++
          (other.slots ++ (context.fill (.block before driver body rest)).slots.drop
            (context.slotsBefore.length + 1 + body.slots.length)) =
        (context.fill (.block before driver other rest)).slots := by
  obtain ⟨hTexts, hTextsBehind⟩ := fragments_around context before driver body rest
  obtain ⟨hSlots, hSlotsBehind⟩ := slots_around context before driver body rest
  constructor
  · rw [hTexts, hTextsBehind, Context.fragments_fill, Tree.fragments]
    simp only [List.append_assoc, List.cons_append, List.nil_append]
  · rw [hSlots, hSlotsBehind, Context.slots_fill, Tree.slots]
    simp only [List.append_assoc, List.cons_append, List.nil_append]

end Fill

/-- **A skipped section leaves no trace.** In a template whose sections pair up, take a section
with a literal driver that opens no frame. Without it the sections of the template still pair up,
and the text is the same: for the whole template, and inside any sections, where it is shown once
for each frame of a loop. What stands between the markers of the section does not matter, as long
as its own sections pair up. -/
theorem cut_skipped_section {fragments : List String} {slots : List Slot}
    {sections : SectionMap} {s e : Nat} {driver : Driver}
    (hLength : fragments.length = slots.length + 1) (hSections : ofSlots slots = .ok sections)
    (hEnd : sections.endOf s = some e) (hDriver : slots[s]? = some (.opening driver))
    (hSkips : driver.Skips) :
    (∃ rest, ofSlots (cutSlots slots s e) = .ok rest) ∧
      (cutFragments fragments s e).length = (cutSlots slots s e).length + 1 ∧
      ∀ options : RenderOptions, options.collapseMarkerLines = false →
        (∃ text, renderParts fragments slots options = .ok text ∧
          renderParts (cutFragments fragments s e) (cutSlots slots s e) options = .ok text) ∧
        ∀ scope : Scope, ∃ text, RendersAs fragments slots options scope text ∧
          RendersAs (cutFragments fragments s e) (cutSlots slots s e) options scope text ∧
          ∀ (texts : List String) (more : List Slot),
            texts.length = more.length + 1 → Balanced (more.map Slot.kind) →
              RendersAs (fragments.take (s + 1) ++ (texts ++ fragments.drop (e + 1)))
                (slots.take (s + 1) ++ (more ++ slots.drop e)) options scope text := by
  have hBalanced : Balanced (slots.map Slot.kind) := balanced_of_ofSlots hSections
  obtain ⟨tree, rfl, rfl⟩ := exists_of_balanced fragments slots hLength hBalanced
  obtain ⟨context, before, body, rest, rfl, rfl⟩ := Context.exists_fill_of_opening hDriver
  obtain rfl : context.slotsBefore.length + 1 + body.slots.length = e :=
    Option.some.inj ((endOf_fill hSections).symm.trans hEnd)
  rw [slots_cut, fragments_cut]
  have hText : ∀ (options : RenderOptions), options.collapseMarkerLines = false →
      ∀ (scope : Scope) (inner : Tree),
        RendersAs (context.fill (.block before driver inner rest)).fragments
          (context.fill (.block before driver inner rest)).slots options scope
          ((context.fill (rest.prepend before)).render options.placeholder scope) := by
    intro options hKept scope inner
    have hSame : (context.fill (.block before driver inner rest)).render options.placeholder
        scope = (context.fill (rest.prepend before)).render options.placeholder scope :=
      render_fill_of_skips hSkips context options.placeholder scope
    rw [← hSame]
    exact rendersAs_tree _ hKept scope
  refine ⟨(exists_ofSlots_iff _).mpr (balanced_slots _), Tree.length_fragments _, ?_⟩
  intro options hKept
  refine ⟨⟨_, renderParts_of_rendersAs (hText options hKept _ body),
    renderParts_of_rendersAs (rendersAs_tree _ hKept _)⟩, ?_⟩
  intro scope
  refine ⟨_, hText options hKept scope body, rendersAs_tree _ hKept scope, ?_⟩
  intro texts more hCount hMore
  obtain ⟨other, rfl, rfl⟩ := exists_of_balanced texts more hCount hMore
  obtain ⟨hFragments, hSlots⟩ := parts_replaced context before driver body rest other
  rw [hFragments, hSlots]
  exact hText options hKept scope other

/-- A loop that is run twice, with a section inside it that is driven by a negative zero and so is
skipped both times. -/
def skippedInLoop : Tree :=
  .block "<" (.value (.array [.null, .null]))
    (.block "(" (.value (.number (.float (.zero true)))) (.accessor "x" .item (.text "y"))
      (.text ")"))
    (.text ">")

theorem skippedInLoop_sections :
    ofSlots skippedInLoop.slots = .ok ⟨[some 4, some 3, none, none, none], 2⟩ := rfl

theorem cut_skipped_section_inLoop :
    skippedInLoop.slots[1]? = some (.opening (.value (.number (.float (.zero true))))) ∧
      (Driver.value (.number (.float (.zero true)))).Skips ∧
      cutFragments skippedInLoop.fragments 1 3 = ["<", "()", ">"] ∧
      cutSlots skippedInLoop.slots 1 3 = [.opening (.value (.array [.null, .null])), .closing] ∧
      renderParts skippedInLoop.fragments skippedInLoop.slots ⟨false, "?"⟩ = .ok "<()()>" ∧
      renderParts ["<", "()", ">"] [.opening (.value (.array [.null, .null])), .closing]
        ⟨false, "?"⟩ = .ok "<()()>" ∧
      RendersAs ["<", "(", "z", ")", ">"]
        [.opening (.value (.array [.null, .null])),
          .opening (.value (.number (.float (.zero true)))), .closing, .closing] ⟨false, "?"⟩
        Scope.empty "<()()>" := by
  have hSkips : (Driver.value (.number (.float (.zero true)))).Skips :=
    Driver.skips_value_iff.mpr (.inr (.inr (.inr (.inr (.inr ⟨true, rfl⟩)))))
  obtain ⟨-, -, hOptions⟩ := cut_skipped_section skippedInLoop.length_fragments
    skippedInLoop_sections (s := 1) (e := 3) rfl rfl hSkips
  obtain ⟨⟨text, hWhole, hCut⟩, hScope⟩ := hOptions ⟨false, "?"⟩ rfl
  obtain ⟨other, hInside, -, hReplaced⟩ := hScope Scope.empty
  obtain ⟨-, -, -, hText⟩ := renderParts_tree skippedInLoop ⟨false, "?"⟩ rfl
  obtain rfl : "<()()>" = text := Except.ok.inj (hText.symm.trans hWhole)
  obtain rfl : "<()()>" = other :=
    Except.ok.inj (hWhole.symm.trans (renderParts_of_rendersAs hInside))
  exact ⟨rfl, hSkips, rfl, rfl, hWhole, hCut, hReplaced ["z"] [] rfl balanced_nil⟩

end Rendering

end Stencil
