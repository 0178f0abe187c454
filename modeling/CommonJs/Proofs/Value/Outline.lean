import CommonJs.Proofs.Value.Walk

/-!
# The outline of a value

A recursion that keeps no list of cells writes every cell out wherever it
occurs, and has no end where a cell lies inside itself. Where no cell does, it
makes the same JSON and the same text, however often a cell is shared. In
general JSON and text have one outline: the places of the value that lie
inside different cells, cut where a cell occurs inside itself.
-/

namespace CommonJs
namespace Rendering

variable {β : Type} {rendering : Rendering β} {heap : Heap} {value root : Value}

/-! ## The recursion without a list of cells -/

/-- What the recursion without a list of cells makes of a value, if it ends.
Every part of a cell is made anew. -/
inductive Plain (rendering : Rendering β) (heap : Heap) : Value → β → Prop
  | leaf {value : Value} :
      value.container? = none →
        Plain rendering heap value (rendering.leaf value)
  | whole {value : Value} {handle : Handle} {cell : Cell} {parts : List β} :
      value.container? = some handle → heap.inside? value = some cell →
      parts.length = cell.values.length →
      (∀ (index : Nat) (item : Value) (part : β),
        cell.values[index]? = some item →
        parts[index]? = some part → Plain rendering heap item part) →
      Plain rendering heap value (rendering.whole cell parts)

/-- Where no cell lies inside itself, the list of cells is never used: what
the recursion makes without it is made by the walk. -/
theorem Plain.eq_walkWithin
    {made : β}
    (plain : rendering.Plain heap value made)
    (acyclic : heap.Acyclic root)
    {position : List Nat}
    (depth : Nat)
    (opened : List Handle)
    (distinct : Distinct heap opened)
    (bound : heap.size ≤ depth + opened.length)
    (occurs : heap.Occurs root position opened value) :
    made = rendering.walkWithin heap depth opened value := by
  induction plain generalizing position depth opened with
  | leaf noContainer =>
      rw [walkWithin_of_leaf (Heap.meet_of_container?_eq_none noContainer)]
  | @whole value handle cell parts isContainer found lengths _
      inductionHypothesis =>
      have notOpen : handle ∉ opened := fun isOpen =>
        acyclic handle (occurs.reaches isContainer)
          (occurs.contains_of_mem isOpen isContainer)
      have meets := Heap.meet_eq_whole_iff.mpr ⟨isContainer, found, notOpen⟩
      obtain ⟨rest, rfl, below⟩ := distinct.exists_depth meets bound
      rw [walkWithin_of_whole meets]
      congr 1
      apply List.ext_getElem?
      intro index
      rw [List.getElem?_map]
      cases isPart : parts[index]? with
      | none =>
          have beyond : cell.values.length ≤ index :=
            lengths ▸ List.getElem?_eq_none_iff.mp isPart
          rw [List.getElem?_eq_none beyond, Option.map_none]
      | some part =>
          have inside : index < cell.values.length :=
            lengths ▸ (List.getElem?_eq_some_iff.mp isPart).1
          have listed := List.getElem?_eq_getElem inside
          rw [listed, Option.map_some,
            inductionHypothesis index _ part listed isPart rest _
            (distinct.opening meets) below
            (occurs.child isContainer found listed)]

/-- Where no cell lies inside itself, the recursion without the list of cells
ends. -/
theorem plain_walkWithin
    {position : List Nat}
    (sound : heap.Sound)
    (held : heap.Holds root)
    (acyclic : heap.Acyclic root)
    (depth : Nat)
    (opened : List Handle)
    (distinct : Distinct heap opened)
    (bound : heap.size ≤ depth + opened.length)
    (value : Value)
    (occurs : heap.Occurs root position opened value) :
    rendering.Plain heap value
      (rendering.walkWithin heap depth opened value) := by
  refine bounded_induction
    (motive := fun depth opened value => ∀ position,
      heap.Occurs root position opened value →
      rendering.Plain heap value (rendering.walkWithin heap depth opened value))
    ?leaf ?cut ?whole depth opened distinct bound value position occurs
  case leaf =>
    intro depth opened value meets position occurs
    rw [walkWithin_of_leaf meets]
    exact .leaf (Heap.meet_eq_leaf_iff.mp meets)
  case cut =>
    intro depth opened value meets position occurs
    obtain ⟨handle, isOpen, isContainer⟩ :=
      (Heap.meet_eq_cut_iff (occurs.holds sound held)).mp meets
    exact absurd (occurs.contains_of_mem isOpen isContainer)
      (acyclic handle (occurs.reaches isContainer))
  case whole =>
    intro depth opened value handle cell meets inductionHypothesis
      position occurs
    obtain ⟨isContainer, found, _⟩ := Heap.meet_eq_whole_iff.mp meets
    rw [walkWithin_of_whole meets]
    apply Plain.whole isContainer found (List.length_map _)
    intro index item part listed isPart
    rw [List.getElem?_map, listed] at isPart
    obtain rfl := Option.some.inj isPart
    exact inductionHypothesis item _ (occurs.child isContainer found listed)

/-- What the recursion without bounds makes is what the walk makes. -/
theorem plain_iff
    (sound : heap.Sound)
    (held : heap.Holds value)
    (acyclic : heap.Acyclic value)
    {made : β} :
    rendering.Plain heap value made ↔
      made = rendering.walkWithin heap heap.size [] value := by
  have distinct := distinct_nil heap
  constructor
  · intro plain
    exact plain.eq_walkWithin acyclic heap.size [] distinct (Nat.le_refl _)
      (.here value)
  · rintro rfl
    exact plain_walkWithin sound held acyclic heap.size [] distinct
      (Nat.le_refl _) value (.here value)

end Rendering

/-! ## Outlines -/

/-- A value as a tree: a cell that is shared is in it as often as it occurs,
down to the places where it is cut. -/
inductive Outline
  | leaf (value : Value)
  | cut
  | whole (cell : Cell) (parts : List Outline)

namespace Outline

/-- What is at a place of an outline, given by the positions on the way
down. -/
def at? : Outline → List Nat → Option Outline
  | outline, [] => some outline
  | .whole _ parts, index :: position =>
      match parts[index]? with
      | some part => part.at? position
      | none => none
  | _, _ :: _ => none

/-- The first step of a place is the number of a part. -/
theorem at?_whole_cons
    {cell : Cell}
    {parts : List Outline}
    {index : Nat}
    {position : List Nat}
    {part : Outline} :
    (whole cell parts).at? (index :: position) = some part ↔
      ∃ child, parts[index]? = some child ∧ child.at? position = some part := by
  rw [at?]
  cases parts[index]? <;> simp

mutual

/-- What a rendering makes of an outline. -/
def render (rendering : Rendering β) : Outline → β
  | .leaf value => rendering.leaf value
  | .cut => rendering.cut
  | .whole cell parts => rendering.whole cell (renderParts rendering parts)

def renderParts (rendering : Rendering β) : List Outline → List β
  | [] => []
  | part :: parts => part.render rendering :: renderParts rendering parts

end

theorem renderParts_eq (rendering : Rendering β) (parts : List Outline) :
    renderParts rendering parts = parts.map (render rendering) := by
  induction parts with
  | nil => rw [renderParts, List.map_nil]
  | cons part parts inductionHypothesis =>
      rw [renderParts, inductionHypothesis, List.map_cons]

/-- The places of an outline are the places of a value inside different cells.
A cell is cut exactly where it is one of the cells around its place, and what
is not cut is there as a whole. -/
structure Depicts (heap : Heap) (value : Value) (outline : Outline) : Prop where
  /-- Each place of the outline is one of the value, and the reverse. -/
  places : ∀ position,
    (∃ part, outline.at? position = some part) ↔
      ∃ enclosing held, heap.Occurs value position enclosing held ∧
        enclosing.Nodup
  /-- What is no cell is shown as it is. -/
  leaf_iff : ∀ {position enclosing held},
    heap.Occurs value position enclosing held → enclosing.Nodup →
      (outline.at? position = some (.leaf held) ↔ held.container? = none)
  /-- A cell that is met inside itself is cut. -/
  cut_iff : ∀ {position enclosing held},
    heap.Occurs value position enclosing held → enclosing.Nodup →
      (outline.at? position = some .cut ↔
        ∃ handle ∈ enclosing, held.container? = some handle)
  /-- Any other cell is shown with its parts. -/
  whole_iff : ∀ {position enclosing held cell},
    heap.Occurs value position enclosing held → enclosing.Nodup →
      ((∃ parts, outline.at? position = some (.whole cell parts)) ↔
        ∃ handle, held.container? = some handle ∧
          heap.inside? held = some cell ∧
          handle ∉ enclosing)

end Outline

namespace Rendering

variable {β : Type} {rendering : Rendering β} {heap : Heap} {value root : Value}

/-- The walk that makes an outline. -/
def outline : Rendering Outline :=
  ⟨.leaf, .cut, .whole⟩

/-- Whatever a walk makes, it makes of the outline. -/
theorem walkWithin_eq_render
    (depth : Nat)
    (opened : List Handle)
    (value : Value) :
    rendering.walkWithin heap depth opened value =
      (outline.walkWithin heap depth opened value).render rendering := by
  refine walkWithin_related outline
    (fun made drawn => made = drawn.render rendering)
    (fun _ => rfl) rfl (fun cell part otherPart same => ?_) depth opened value
  have parts : cell.values.map part =
      Outline.renderParts rendering (cell.values.map otherPart) := by
    rw [Outline.renderParts_eq, List.map_map]
    exact List.map_congr_left same
  exact congrArg (rendering.whole cell) parts

/-- What is at a place of an outline is the outline of what stands there,
inside the cells around it; no other place is in the outline than those inside
different cells. -/
theorem at?_walkWithin
    (position : List Nat)
    (depth : Nat)
    (opened : List Handle)
    (distinct : Distinct heap opened)
    (bound : heap.size ≤ depth + opened.length)
    (value : Value)
    (part : Outline) :
    (outline.walkWithin heap depth opened value).at? position = some part ↔
      ∃ enclosing held, heap.Occurs value position enclosing held ∧
        (enclosing ++ opened).Nodup ∧
        outline.walkWithin heap (depth - enclosing.length) (enclosing ++ opened)
          held = part := by
  induction position generalizing depth opened value with
  | nil =>
      constructor
      · intro stands
        exact ⟨[], value, .here value, distinct.nodup, Option.some.inj stands⟩
      · rintro ⟨enclosing, held, occurs, -, rfl⟩
        cases occurs with
        | here => rfl
  | cons index position inductionHypothesis =>
      constructor
      · intro stands
        cases meets : heap.meet opened value with
        | leaf =>
            rw [walkWithin_of_leaf meets] at stands
            cases stands
        | cut =>
            rw [walkWithin_of_cut meets] at stands
            cases stands
        | whole handle cell =>
            obtain ⟨isContainer, found, _⟩ := Heap.meet_eq_whole_iff.mp meets
            obtain ⟨rest, rfl, below⟩ := distinct.exists_depth meets bound
            rw [walkWithin_of_whole meets] at stands
            obtain ⟨child, isChild, stands⟩ := Outline.at?_whole_cons.mp stands
            rw [List.getElem?_map] at isChild
            obtain ⟨item, listed, rfl⟩ := Option.map_eq_some_iff.mp isChild
            obtain ⟨inner, held, occurs, nodup, made⟩ :=
              (inductionHypothesis rest _ (distinct.opening meets) below
                item).mp stands
            refine ⟨inner ++ [handle], held,
              .inside isContainer found listed occurs, ?_, ?_⟩
            · simpa using nodup
            · simpa using made
      · rintro ⟨enclosing, held, occurs, nodup, made⟩
        cases occurs with
        | @inside _ item _ handle cell _ _ inner isContainer found listed
            further =>
            rw [List.append_assoc, List.singleton_append] at nodup made
            have notOpen : handle ∉ opened :=
              (List.nodup_cons.mp (List.nodup_append.mp nodup).2.1).1
            have meets :=
              Heap.meet_eq_whole_iff.mpr ⟨isContainer, found, notOpen⟩
            obtain ⟨rest, rfl, below⟩ := distinct.exists_depth meets bound
            rw [walkWithin_of_whole meets]
            apply Outline.at?_whole_cons.mpr
            refine ⟨outline.walkWithin heap rest (handle :: opened)
              item, ?_, ?_⟩
            · rw [List.getElem?_map, listed, Option.map_some]
            · apply (inductionHypothesis rest _ (distinct.opening meets) below
                item).mpr
              refine ⟨inner, held, further, nodup, ?_⟩
              rwa [List.length_append, List.length_singleton,
                Nat.add_sub_add_right] at made

/-- The top of an outline is what the walk meets. -/
theorem exists_outline_eq
    {opened : List Handle}
    (distinct : Distinct heap opened)
    {depth : Nat}
    (bound : heap.size ≤ depth + opened.length)
    (value : Value) :
    ∃ parts, outline.walkWithin heap depth opened value =
      match heap.meet opened value with
      | .leaf => .leaf value
      | .cut => .cut
      | .whole _ cell => .whole cell parts := by
  cases meets : heap.meet opened value with
  | leaf => exact ⟨[], walkWithin_of_leaf meets depth⟩
  | cut => exact ⟨[], walkWithin_of_cut meets depth⟩
  | whole handle cell =>
      obtain ⟨rest, rfl, -⟩ := distinct.exists_depth meets bound
      exact ⟨_, walkWithin_of_whole meets rest⟩

section Places

variable {position : List Nat} {enclosing : List Handle} {held : Value}

/-- A part of the outline is the outline of what stands there. -/
theorem at?_outline_eq_some_iff {part : Outline} :
    (outline.walkWithin heap heap.size [] value).at? position = some part ↔
      ∃ enclosing held, heap.Occurs value position enclosing held ∧
        enclosing.Nodup ∧
        outline.walkWithin heap (heap.size - enclosing.length) enclosing
          held = part := by
  have places := at?_walkWithin position heap.size [] (distinct_nil heap)
    (Nat.le_refl _) value part
  simpa only [List.append_nil] using places

/-- A place inside different cells is in the outline, and what is there is
what a walk inside these cells meets. -/
theorem exists_at?_outline_eq
    (occurs : heap.Occurs value position enclosing held)
    (nodup : enclosing.Nodup) :
    ∃ parts, (outline.walkWithin heap heap.size [] value).at? position =
      match heap.meet enclosing held with
      | .leaf => some (.leaf held)
      | .cut => some .cut
      | .whole _ cell => some (.whole cell parts) := by
  have distinct : Distinct heap enclosing :=
    ⟨nodup, fun _ => occurs.index_lt_size_of_mem⟩
  have bound : heap.size ≤ heap.size - enclosing.length + enclosing.length :=
    Nat.le_of_eq (Nat.sub_add_cancel distinct.length_le_size).symm
  obtain ⟨parts, made⟩ := exists_outline_eq distinct bound held
  refine ⟨parts, ?_⟩
  rw [at?_outline_eq_some_iff.mpr ⟨enclosing, held, occurs, nodup, rfl⟩, made]
  cases heap.meet enclosing held <;> rfl

end Places

/-- The walk that makes outlines makes the outline of its value. -/
theorem depicts_outline
    (sound : heap.Sound)
    (known : heap.Holds value) :
    Outline.Depicts heap value
      (outline.walkWithin heap heap.size [] value) where
  places position := by
    constructor
    · rintro ⟨part, stands⟩
      obtain ⟨enclosing, held, occurs, nodup, -⟩ :=
        at?_outline_eq_some_iff.mp stands
      exact ⟨enclosing, held, occurs, nodup⟩
    · rintro ⟨enclosing, held, occurs, nodup⟩
      exact ⟨_,
        at?_outline_eq_some_iff.mpr ⟨enclosing, held, occurs, nodup, rfl⟩⟩
  leaf_iff occurs nodup := by
    obtain ⟨parts, stands⟩ := exists_at?_outline_eq occurs nodup
    rw [stands, ← Heap.meet_eq_leaf_iff]
    cases heap.meet _ _ <;> simp
  cut_iff occurs nodup := by
    obtain ⟨parts, stands⟩ := exists_at?_outline_eq occurs nodup
    rw [stands, ← Heap.meet_eq_cut_iff (occurs.holds sound known)]
    cases heap.meet _ _ <;> simp
  whole_iff occurs nodup := by
    obtain ⟨parts, stands⟩ := exists_at?_outline_eq occurs nodup
    simp only [stands, ← Heap.meet_eq_whole_iff]
    cases heap.meet _ _ <;> simp

end Rendering

/-- Where no cell lies inside itself, JSON and text are what the recursion
without a list of cells makes, which ends there. In any case both are made of
one outline, in which exactly those occurrences of a cell are cut that the
cell itself encloses. -/
theorem cells_cut_only_inside_themselves
    {heap : Heap}
    {value : Value}
    (sound : heap.Sound)
    (held : heap.Holds value) :
    (heap.Acyclic value →
      (∀ json, Rendering.json.Plain heap value json ↔
          json = heap.toJson value) ∧
        ∀ text, Rendering.text.Plain heap value text ↔ text = heap.text value) ∧
    ∃ outline : Outline, outline.Depicts heap value ∧
      heap.toJson value = outline.render Rendering.json ∧
      heap.text value = outline.render Rendering.text := by
  rw [Heap.toJson, Heap.text, Rendering.toJsonWithin_eq,
    Rendering.textWithin_eq]
  constructor
  · intro acyclic
    exact ⟨fun json => Rendering.plain_iff sound held acyclic,
      fun text => Rendering.plain_iff sound held acyclic⟩
  · exact ⟨_, Rendering.depicts_outline sound held,
      Rendering.walkWithin_eq_render heap.size [] value,
      Rendering.walkWithin_eq_render heap.size [] value⟩

namespace Heap

/-- An empty array, an array that holds it twice, and an object in itself. -/
def sharingAndLoop : Heap :=
  ⟨#[.array [], .array [.array ⟨0⟩, .array ⟨0⟩],
    .object ⟨[("self", .object ⟨2⟩)]⟩]⟩

theorem built_sharingAndLoop : sharingAndLoop.Built := by
  have nothing := Built.allocate (.array []) .empty nofun
  have holdsNothing :
      (Heap.empty.allocate (.array [])).2.Holds (.array ⟨0⟩) := by
    rintro _ ⟨⟩
    exact ⟨.array [], rfl, trivial⟩
  have twice := nothing.allocate (.array [.array ⟨0⟩, .array ⟨0⟩])
    (List.forall_mem_cons.mpr
      ⟨holdsNothing, List.forall_mem_singleton.mpr holdsNothing⟩)
  have object := twice.allocate (.object .empty) nofun
  have changed : (⟨#[.array [], .array [.array ⟨0⟩, .array ⟨0⟩],
        .object .empty]⟩ : Heap).setField?
      (.object ⟨2⟩) "self" (.object ⟨2⟩) = some sharingAndLoop := rfl
  refine object.set ?_ changed
  rintro _ ⟨⟩
  exact ⟨.object .empty, rfl, trivial⟩

theorem holds_twice_sharingAndLoop : sharingAndLoop.Holds (.array ⟨1⟩) := by
  rintro _ ⟨⟩
  exact ⟨_, rfl, trivial⟩

theorem holds_loop_sharingAndLoop : sharingAndLoop.Holds (.object ⟨2⟩) := by
  rintro _ ⟨⟩
  exact ⟨_, rfl, trivial⟩

theorem acyclic_twice_sharingAndLoop : sharingAndLoop.Acyclic (.array ⟨1⟩) := by
  refine acyclic_of_descends (·.index ≤ 1) (by rintro _ ⟨⟩; rfl) ?_
  rintro ⟨outer⟩ inner within ⟨cell, found, value, listed, isInner⟩
  obtain rfl | rfl := Nat.le_one_iff_eq_zero_or_eq_one.mp within
  · cases found
    cases listed
  · cases found
    have isNothing : value ∈ [Value.array ⟨0⟩, .array ⟨0⟩] := listed
    obtain rfl : value = .array ⟨0⟩ := by simpa using isNothing
    cases isInner
    decide

end Heap

/-- A cell that is met twice is shown twice, and one that is met in itself is
cut. -/
theorem cells_cut_only_inside_themselves_sharingAndLoop :
    (Heap.sharingAndLoop.Sound ∧ Heap.sharingAndLoop.Holds (.array ⟨1⟩) ∧
      Heap.sharingAndLoop.Acyclic (.array ⟨1⟩) ∧
      ∀ json, Rendering.json.Plain Heap.sharingAndLoop (.array ⟨1⟩) json ↔
        json = Heap.sharingAndLoop.toJson (.array ⟨1⟩)) ∧
    Heap.sharingAndLoop.Holds (.object ⟨2⟩) ∧
    ∃ outline : Outline, outline.Depicts Heap.sharingAndLoop (.object ⟨2⟩) ∧
      Heap.sharingAndLoop.toJson (.object ⟨2⟩) = outline.render Rendering.json ∧
      Heap.sharingAndLoop.text (.object ⟨2⟩) =
        outline.render Rendering.text := by
  have sound := Heap.built_sharingAndLoop.sound
  have twice := Heap.holds_twice_sharingAndLoop
  have acyclic := Heap.acyclic_twice_sharingAndLoop
  have loop := Heap.holds_loop_sharingAndLoop
  exact ⟨⟨sound, twice, acyclic,
    ((cells_cut_only_inside_themselves sound twice).1 acyclic).1⟩, loop,
    (cells_cut_only_inside_themselves sound loop).2⟩

end CommonJs
