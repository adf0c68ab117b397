import Stencil.Proofs.Rendering.Reach

/-!
# Templates that read elements

A frame shows its element, its position in the loop and the list that is looped over. Most
templates read nothing but elements. For these it makes no difference how a frame came about:
scopes with the same elements give the same text, and a section is shown once for each of the
elements of its frames. So a loop over two lists joined is the loop over the first and then the
loop over the second, although positions and lists differ, and a section driven by a true value
is a loop over that value alone.

## Main results

* `Tree.render_congr_of_elements` — scopes with the same elements give the same text.
* `repeated_congr_of_elements` — so do frames with the same elements, when a section shows its
  body inside them.
* `render_depends_on_elements` — both for templates, with what becomes of loops over joined
  lists and of conditional sections.
-/

namespace Stencil

/-! ## Elements -/

/-- The elements of the frames around a place, the innermost first. -/
def Scope.elements (scope : Scope) : List Value := scope.frames.map Frame.element

theorem Scope.elements_push (scope : Scope) (frame : Frame) :
    (scope.push frame).elements = frame.element :: scope.elements := rfl

theorem Scope.element_frameAt (scope : Scope) (levels : Nat) :
    (scope.frameAt levels).element = Value.ofOption scope.elements[levels]? := by
  unfold frameAt elements
  rw [List.getElem?_map]
  cases scope.frames[levels]? <;> rfl

/-- The elements of the frames of a loop are the items of its list. -/
theorem Frame.map_element_expand_array (items : List Value) :
    (expand (.array items)).map element = items := by
  rw [expand_array, List.map_map]
  apply List.ext_getElem
  · simp
  · intro k hk hItem
    rw [List.getElem_map, List.getElem_range]
    exact element_looped (List.getElem?_eq_getElem hItem)

theorem Frame.map_element_expand_truthy {v : Value} (hList : v.items? = none)
    (hTruthy : v.isTruthy = true) : (expand v).map element = [v] := by
  rw [expand_truthy hList hTruthy]
  rfl

namespace Accessor

/-- An accessor that starts from the element makes the same of frames with the same element. -/
theorem derive_congr_of_element {a : Accessor} (hRoot : a.root = .item) {seen seen' : Frame}
    (hElement : seen.element = seen'.element) : a.derive seen = a.derive seen' := by
  induction a with
  | element => exact hElement
  | index => cases hRoot
  | source => cases hRoot
  | frame f => cases hRoot
  | get inner segment ih => rw [derive, derive, ih hRoot]
  | map inner f ih => rw [derive, derive, ih hRoot]
  | outside levels inner ih => rw [derive, derive, ih hRoot]

theorem evaluate_congr_of_elements {a : Accessor} (hRoot : a.root = .item)
    {scope scope' : Scope} (hAgree : scope.elements = scope'.elements) :
    a.evaluate scope = a.evaluate scope' := by
  rw [evaluate_eq_derive, evaluate_eq_derive]
  apply derive_congr_of_element hRoot
  rw [Scope.element_frameAt, Scope.element_frameAt, hAgree]

end Accessor

/-- Every accessor among the slots starts from the element. -/
def ReadsElements (slots : List Slot) : Prop :=
  ∀ slot ∈ slots, ∀ a, slot.accessor? = some a → a.root = .item

namespace ReadsElements

variable {slots more : List Slot}

theorem of_append (h : ReadsElements (slots ++ more)) :
    ReadsElements slots ∧ ReadsElements more := by
  constructor
  · intro slot hSlot
    exact h slot (List.mem_append_left more hSlot)
  · intro slot hSlot
    exact h slot (List.mem_append_right slots hSlot)

theorem of_cons {slot : Slot} (h : ReadsElements (slot :: slots)) : ReadsElements slots := by
  intro other hOther
  exact h other (List.mem_cons_of_mem slot hOther)

end ReadsElements

theorem Driver.evaluate_congr_of_elements {driver : Driver} {slots : List Slot}
    (h : ReadsElements (.opening driver :: slots)) {scope scope' : Scope}
    (hAgree : scope.elements = scope'.elements) :
    driver.evaluate scope = driver.evaluate scope' := by
  cases driver with
  | value v => rfl
  | accessor a =>
      have hRoot : a.root = .item := h (.opening (.accessor a)) List.mem_cons_self a rfl
      exact Accessor.evaluate_congr_of_elements hRoot hAgree

/-! ## Trees -/

namespace Tree

open Rendering

/-- **Scopes with the same elements give the same text.** -/
theorem render_congr_of_elements {tree : Tree} (h : ReadsElements tree.slots)
    {scope scope' : Scope} (hAgree : scope.elements = scope'.elements) (placeholder : String) :
    tree.render placeholder scope = tree.render placeholder scope' := by
  induction tree generalizing scope scope' with
  | text before => rfl
  | direct before value rest ih => rw [render, render, ih h.of_cons hAgree]
  | accessor before a rest ih =>
      have hRoot : a.root = .item := h (.accessor a) List.mem_cons_self a rfl
      rw [render, render, Accessor.evaluate_congr_of_elements hRoot hAgree, ih h.of_cons hAgree]
  | block before driver body rest ihBody ihRest =>
      have hParts : ReadsElements body.slots ∧ ReadsElements (.closing :: rest.slots) :=
        h.of_cons.of_append
      have hShown : ∀ frames, repeated placeholder body scope frames =
          repeated placeholder body scope' frames := by
        apply repeated_congr
        intro frame
        -- the frame that is pushed is the same on both sides, so the elements stay the same
        apply ihBody hParts.1
        rw [Scope.elements_push, Scope.elements_push, hAgree]
      rw [render_block, render_block, Driver.evaluate_congr_of_elements h hAgree, hShown,
        ihRest hParts.2.of_cons hAgree]

end Tree

namespace Rendering

open Section

variable {body : Tree} {placeholder : String} {scope : Scope}

theorem repeated_append (frames more : List Frame) :
    repeated placeholder body scope (frames ++ more) =
      repeated placeholder body scope frames ++ repeated placeholder body scope more := by
  rw [repeated, List.map_append, String.join_append]
  rfl

/-- A section shows its body once for each element. -/
theorem repeated_eq_of_elements (h : ReadsElements body.slots) (frames : List Frame) :
    repeated placeholder body scope frames =
      repeated placeholder body scope ((frames.map Frame.element).map .conditional) := by
  rw [repeated, repeated, List.map_map, List.map_map]
  apply congrArg String.join
  apply List.map_congr_left
  intro frame _
  have hAgree : (scope.push frame).elements =
      (scope.push (.conditional frame.element)).elements := rfl
  exact Tree.render_congr_of_elements h hAgree placeholder

/-- **Frames with the same elements give a section the same text.** -/
theorem repeated_congr_of_elements (h : ReadsElements body.slots) {frames frames' : List Frame}
    (hAgree : frames.map Frame.element = frames'.map Frame.element) :
    repeated placeholder body scope frames = repeated placeholder body scope frames' := by
  rw [repeated_eq_of_elements h frames, repeated_eq_of_elements h frames', hAgree]

/-- A loop over two lists joined is one loop after the other. -/
theorem repeated_expand_append (h : ReadsElements body.slots) (xs ys : List Value) :
    repeated placeholder body scope (Frame.expand (.array (xs ++ ys))) =
      repeated placeholder body scope (Frame.expand (.array xs)) ++
        repeated placeholder body scope (Frame.expand (.array ys)) := by
  rw [← repeated_append]
  apply repeated_congr_of_elements h
  rw [List.map_append, Frame.map_element_expand_array, Frame.map_element_expand_array,
    Frame.map_element_expand_array]

/-- A conditional section is a loop over its value alone. -/
theorem repeated_expand_singleton (h : ReadsElements body.slots) {v : Value}
    (hList : v.items? = none) (hTruthy : v.isTruthy = true) :
    repeated placeholder body scope (Frame.expand v) =
      repeated placeholder body scope (Frame.expand (.array [v])) := by
  apply repeated_congr_of_elements h
  rw [Frame.map_element_expand_truthy hList hTruthy, Frame.map_element_expand_array]

/-! ## Templates -/

/-- Between any two texts, a section with the given body is rendered as `text`. -/
def SectionRendersAs (fragments : List String) (slots : List Slot) (options : RenderOptions)
    (scope : Scope) (driver : Driver) (text : String) : Prop :=
  ∀ before after,
    RendersAs (before :: (fragments ++ [after])) (.opening driver :: (slots ++ [.closing])) options
      scope (before ++ text ++ after)

variable {options : RenderOptions}

theorem sectionRendersAs (body : Tree) (hKept : options.collapseMarkerLines = false)
    (scope : Scope) (driver : Driver) :
    SectionRendersAs body.fragments body.slots options scope driver
      (repeated options.placeholder body scope (Frame.expand (driver.evaluate scope))) := by
  intro before after
  have hTree := rendersAs_tree (.block before driver body (.text after)) hKept scope
  rwa [render_block] at hTree

/-- Two sections with the same body, one behind the other. -/
theorem rendersAs_two_sections (body : Tree) (hKept : options.collapseMarkerLines = false)
    (scope : Scope) (first second : Driver) (before after : String) :
    RendersAs (before :: (body.fragments ++ "" :: (body.fragments ++ [after])))
      (.opening first :: (body.slots ++ .closing :: .opening second :: (body.slots ++ [.closing])))
      options scope
      (before ++
        (repeated options.placeholder body scope (Frame.expand (first.evaluate scope)) ++
          repeated options.placeholder body scope (Frame.expand (second.evaluate scope))) ++
        after) := by
  have hTree := rendersAs_tree (.block before first body (.block "" second body (.text after)))
    hKept scope
  rw [render_block, render_block, String.empty_append, Tree.render] at hTree
  simp only [String.append_assoc] at hTree ⊢
  exact hTree

/-- **Templates that read elements depend on elements alone.** Inside sections whose frames have
the same elements such a template has the same text. With such a body, a section driven by two
lists joined shows what the sections driven by the one and by the other show, one after the
other; and a section driven by a true value that is no list shows what a loop over that value
shows. -/
theorem render_depends_on_elements (fragments : List String) (slots : List Slot)
    (options : RenderOptions) {sections : SectionMap}
    (hLength : fragments.length = slots.length + 1) (hSections : ofSlots slots = .ok sections)
    (hElements : ReadsElements slots) :
    (∀ scope scope' : Scope, scope.elements = scope'.elements →
        ∃ text, RendersAs fragments slots options scope text ∧
          RendersAs fragments slots options scope' text) ∧
      (options.collapseMarkerLines = false → ∀ scope : Scope,
        (∀ (xs ys : List Value) (whole first second : Driver),
            whole.evaluate scope = .array (xs ++ ys) → first.evaluate scope = .array xs →
              second.evaluate scope = .array ys →
                ∃ text more, SectionRendersAs fragments slots options scope first text ∧
                  SectionRendersAs fragments slots options scope second more ∧
                  SectionRendersAs fragments slots options scope whole (text ++ more) ∧
                  ∀ before after,
                    RendersAs (before :: (fragments ++ "" :: (fragments ++ [after])))
                      (.opening first ::
                        (slots ++ .closing :: .opening second :: (slots ++ [.closing])))
                      options scope (before ++ (text ++ more) ++ after)) ∧
          ∀ (v : Value) (driver single : Driver), v.items? = none → v.isTruthy = true →
            driver.evaluate scope = v → single.evaluate scope = .array [v] →
              ∃ text, SectionRendersAs fragments slots options scope driver text ∧
                SectionRendersAs fragments slots options scope single text) := by
  constructor
  · intro scope scope' hAgree
    obtain ⟨r, hParts, -, hSlotsEq, -⟩ := exists_ofParts options hLength hSections
    obtain ⟨tree, hFragments, hSlots⟩ := exists_tree r
    have hTree : ReadsElements tree.slots := by rwa [hSlots, hSlotsEq]
    refine ⟨tree.render r.placeholder scope, ?_, ?_⟩
    · exact ⟨r, hParts, render_eq_some hFragments hSlots scope⟩
    · rw [Tree.render_congr_of_elements hTree hAgree]
      exact ⟨r, hParts, render_eq_some hFragments hSlots scope'⟩
  · intro hKept scope
    obtain ⟨body, rfl, rfl⟩ :=
      Tree.exists_of_balanced fragments slots hLength (balanced_of_ofSlots hSections)
    constructor
    · intro xs ys whole first second hWhole hFirst hSecond
      have hBoth := sectionRendersAs body hKept scope whole
      rw [hWhole, repeated_expand_append hElements, ← hFirst, ← hSecond] at hBoth
      exact ⟨_, _, sectionRendersAs body hKept scope first,
        sectionRendersAs body hKept scope second, hBoth,
        rendersAs_two_sections body hKept scope first second⟩
    · intro v driver single hList hTruthy hDriver hSingle
      have hOnce := sectionRendersAs body hKept scope driver
      rw [hDriver, repeated_expand_singleton hElements hList hTruthy, ← hSingle] at hOnce
      exact ⟨_, hOnce, sectionRendersAs body hKept scope single⟩

/-- A loop over the element, in which the items and the element are shown. -/
def itemsOfElement : List Slot :=
  [.opening (.accessor .item), .accessor .item, .accessor (.outside 1 .item), .closing]

theorem itemsOfElement_sections :
    ofSlots itemsOfElement = .ok ⟨[some 3, none, none, none], 1⟩ := rfl

theorem readsElements_itemsOfElement : ReadsElements itemsOfElement := by
  intro slot hSlot a ha
  simp only [itemsOfElement, List.mem_cons, List.not_mem_nil, or_false] at hSlot
  rcases hSlot with rfl | rfl | rfl | rfl
  · exact Option.some.inj ha ▸ rfl
  · exact Option.some.inj ha ▸ rfl
  · exact Option.some.inj ha ▸ rfl
  · cases ha

/-- Inside a loop and inside a conditional section with the same element, and in a loop over
two lists, `itemsOfElement` shows the same. -/
theorem render_depends_on_elements_itemsOfElement :
    ofSlots itemsOfElement = .ok ⟨[some 3, none, none, none], 1⟩ ∧
      ReadsElements itemsOfElement ∧
      (∃ text,
        RendersAs ["(", "", "/", ";", ")"] itemsOfElement {}
            (Scope.ofFrames [.looped (.array [.null, .string "a"]) 1]) text ∧
          RendersAs ["(", "", "/", ";", ")"] itemsOfElement {}
            (Scope.ofFrames [.conditional (.string "a")]) text) ∧
      (∃ text more,
        SectionRendersAs ["(", "", "/", ";", ")"] itemsOfElement {} Scope.empty
            (.value (.array [.null])) text ∧
          SectionRendersAs ["(", "", "/", ";", ")"] itemsOfElement {} Scope.empty
            (.value (.array [.string "a", .array []])) more ∧
          SectionRendersAs ["(", "", "/", ";", ")"] itemsOfElement {} Scope.empty
            (.value (.array [.null, .string "a", .array []])) (text ++ more)) ∧
      ∃ text,
        SectionRendersAs ["(", "", "/", ";", ")"] itemsOfElement {} Scope.empty
            (.value (.string "a")) text ∧
          SectionRendersAs ["(", "", "/", ";", ")"] itemsOfElement {} Scope.empty
            (.value (.array [.string "a"])) text := by
  obtain ⟨hScopes, hSections⟩ := render_depends_on_elements ["(", "", "/", ";", ")"]
    itemsOfElement {} rfl itemsOfElement_sections readsElements_itemsOfElement
  obtain ⟨hJoined, hSingle⟩ := hSections rfl Scope.empty
  obtain ⟨text, more, hText, hMore, hWhole, -⟩ := hJoined [.null] [.string "a", .array []]
    (.value (.array [.null, .string "a", .array []])) (.value (.array [.null]))
    (.value (.array [.string "a", .array []])) rfl rfl rfl
  exact ⟨itemsOfElement_sections, readsElements_itemsOfElement, hScopes _ _ rfl,
    ⟨text, more, hText, hMore, hWhole⟩,
    hSingle (.string "a") (.value (.string "a")) (.value (.array [.string "a"])) rfl rfl rfl rfl⟩

end Rendering

end Stencil
