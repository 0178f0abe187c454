import CommonJs.Proofs.Value.Containment
import CommonJs.Value.Json
import CommonJs.Value.Text

/-!
# Renderings of a value

JSON and text are made by one recursion through the cells of a value. They
differ in what becomes of a value without parts, of a cell with what is made of
its parts, and of a cell that lies inside itself and is cut. The recursion
knows the cells that it is in, and a bound on how deep it may go that heaps
never reach.
-/

namespace CommonJs

/-- What is made of the parts of a value. -/
structure Rendering (β : Type) where
  /-- What a value without parts becomes. -/
  leaf : Value → β
  /-- What a cell becomes that is met inside itself. -/
  cut : β
  /-- What a cell becomes by what its parts have become. -/
  whole : Cell → List β → β

namespace Rendering

/-- JSON: a cell that is cut is null, and the members of an object are in the
order of their keys. -/
def json : Rendering Json where
  leaf
    | .bool value => .bool value
    | .number value => numberToJson value
    | .string value => .string value
    | _ => .null
  cut := .null
  whole
    | .array _, parts => .array parts
    | .object fields, parts =>
        .object (Json.sortMembers (fields.keys.zip parts))
    | .host _, _ => .null

/-- Text: a cell that is cut is marked, and the fields of an object are in
the order of their insertion. -/
def text : Rendering String where
  leaf
    | .undefined => "undefined"
    | .null => "null"
    | .bool value => if value then "true" else "false"
    | .number value => numberText value
    | .string value => Text.quoted value
    | _ => "[host]"
  cut := "[Circular]"
  whole
    | .array _, parts => "[" ++ ", ".intercalate parts ++ "]"
    | .object fields, parts =>
        let members := (fields.keys.zip parts).map fun member =>
          Text.quoted member.1 ++ ": " ++ member.2
        "\x7b" ++ ", ".intercalate members ++ "\x7d"
    | .host _, _ => "[host]"

end Rendering

/-! ## What a walk meets -/

/-- A value that a walk meets has no cell to go into, or it is cut, or the
walk goes into its cell. -/
inductive Meeting
  | leaf
  | cut
  | whole (handle : Handle) (cell : Cell)

namespace Heap

variable {heap : Heap} {opened : List Handle} {value : Value} {handle : Handle}
  {cell : Cell}

/-- What a walk meets that is inside the cells `opened`. -/
def meet (heap : Heap) (opened : List Handle) (value : Value) : Meeting :=
  match value.container?, heap.inside? value with
  | none, _ => .leaf
  | some _, none => .cut
  | some handle, some cell =>
      if handle ∈ opened then .cut else .whole handle cell

theorem meet_of_container?_eq_none (noContainer : value.container? = none) :
    heap.meet opened value = .leaf := by
  rw [meet, noContainer]

/-- A cell is cut if it is one of those around. -/
theorem meet_of_inside?
    (isContainer : value.container? = some handle)
    (found : heap.inside? value = some cell) :
    heap.meet opened value = if handle ∈ opened then .cut else
      .whole handle cell := by
  rw [meet, isContainer, found]

theorem meet_of_inside?_eq_none
    (isContainer : value.container? = some handle)
    (nothing : heap.inside? value = none) : heap.meet opened value = .cut := by
  rw [meet, isContainer, nothing]

/-- What is no cell is a leaf. -/
theorem meet_eq_leaf_iff : heap.meet opened value = .leaf ↔
    value.container? = none := by
  refine ⟨fun meets => ?_, meet_of_container?_eq_none⟩
  unfold meet at meets
  split at meets
  next noContainer => exact noContainer
  next => cases meets
  next => split_ifs at meets

/-- What the heap holds is cut only where its cell is open. -/
theorem meet_eq_cut_iff (held : heap.Holds value) :
    heap.meet opened value = .cut ↔
      ∃ handle ∈ opened, value.container? = some handle := by
  constructor
  · intro meets
    unfold meet at meets
    split at meets
    next => cases meets
    next isContainer nothing =>
      obtain ⟨cell, found⟩ := held.exists_inside? isContainer
      cases nothing.symm.trans found
    next isContainer found =>
      split_ifs at meets with isOpen
      exact ⟨_, isOpen, isContainer⟩
  · rintro ⟨handle, isOpen, isContainer⟩
    obtain ⟨cell, found⟩ := held.exists_inside? isContainer
    rw [meet_of_inside? isContainer found, if_pos isOpen]

/-- A cell is gone through if it is none of those around. -/
theorem meet_eq_whole_iff :
    heap.meet opened value = .whole handle cell ↔
      value.container? = some handle ∧ heap.inside? value = some cell ∧
        handle ∉ opened := by
  constructor
  · intro meets
    unfold meet at meets
    split at meets
    next => cases meets
    next => cases meets
    next isContainer found =>
      split_ifs at meets with isOpen
      obtain ⟨rfl, rfl⟩ := Meeting.whole.inj meets
      exact ⟨isContainer, found, isOpen⟩
  · rintro ⟨isContainer, found, notOpen⟩
    rw [meet_of_inside? isContainer found, if_neg notOpen]

end Heap

/-! ## The bounded recursion -/

namespace Rendering

variable {β : Type} {rendering : Rendering β} {heap : Heap}

/-- What is made of a value that is met inside the cells `opened`, if at most
`depth` more cells are gone into. -/
def walkWithin
    (rendering : Rendering β)
    (heap : Heap) : Nat → List Handle → Value → β
  | 0, opened, value =>
      match heap.meet opened value with
      | .leaf => rendering.leaf value
      | _ => rendering.cut
  | depth + 1, opened, value =>
      match heap.meet opened value with
      | .leaf => rendering.leaf value
      | .cut => rendering.cut
      | .whole handle cell =>
          rendering.whole cell
            (cell.values.map
              (walkWithin rendering heap depth (handle :: opened)))

theorem walkWithin_of_leaf
    {opened : List Handle}
    {value : Value}
    (meets : heap.meet opened value = .leaf)
    (depth : Nat) :
    rendering.walkWithin heap depth opened value = rendering.leaf value := by
  cases depth <;> rw [walkWithin, meets]

theorem walkWithin_of_cut
    {opened : List Handle}
    {value : Value}
    (meets : heap.meet opened value = .cut)
    (depth : Nat) :
    rendering.walkWithin heap depth opened value = rendering.cut := by
  cases depth <;> rw [walkWithin, meets]

/-- The parts of a cell are walked through inside it. -/
theorem walkWithin_of_whole
    {opened : List Handle}
    {value : Value}
    {handle : Handle}
    {cell : Cell}
    (meets : heap.meet opened value = .whole handle cell)
    (depth : Nat) :
    rendering.walkWithin heap (depth + 1) opened value =
      rendering.whole cell
        (cell.values.map
          (rendering.walkWithin heap depth (handle :: opened))) := by
  rw [walkWithin, meets]

theorem walkWithin_zero_of_whole
    {opened : List Handle}
    {value : Value}
    {handle : Handle}
    {cell : Cell}
    (meets : heap.meet opened value = .whole handle cell) :
    rendering.walkWithin heap 0 opened value = rendering.cut := by
  rw [walkWithin, meets]

/-- At the end of the depth every cell is cut. -/
theorem walkWithin_zero_of_container
    {opened : List Handle}
    {value : Value}
    {handle : Handle}
    (isContainer : value.container? = some handle) :
    rendering.walkWithin heap 0 opened value = rendering.cut := by
  cases found : heap.inside? value with
  | none =>
      exact walkWithin_of_cut (Heap.meet_of_inside?_eq_none isContainer found) 0
  | some cell =>
      rw [walkWithin, Heap.meet_of_inside? isContainer found]
      split_ifs <;> rfl

/-- What two renderings make of the same value is related if leaves and cuts
are, and a whole is where its parts are. -/
theorem walkWithin_related
    {γ : Type}
    (other : Rendering γ)
    (related : β → γ → Prop)
    (leaf : ∀ value, related (rendering.leaf value) (other.leaf value))
    (cut : related rendering.cut other.cut)
    (whole : ∀ (cell : Cell) (part : Value → β) (otherPart : Value → γ),
      (∀ item ∈ cell.values, related (part item) (otherPart item)) →
        related (rendering.whole cell (cell.values.map part))
          (other.whole cell (cell.values.map otherPart)))
    (depth : Nat)
    (opened : List Handle)
    (value : Value) :
    related (rendering.walkWithin heap depth opened value)
      (other.walkWithin heap depth opened value) := by
  induction depth generalizing opened value with
  | zero =>
      cases meets : heap.meet opened value with
      | leaf =>
          rw [walkWithin_of_leaf meets, walkWithin_of_leaf meets]
          exact leaf value
      | cut =>
          rw [walkWithin_of_cut meets, walkWithin_of_cut meets]
          exact cut
      | whole handle cell =>
          rw [walkWithin_zero_of_whole meets, walkWithin_zero_of_whole meets]
          exact cut
  | succ depth inductionHypothesis =>
      cases meets : heap.meet opened value with
      | leaf =>
          rw [walkWithin_of_leaf meets, walkWithin_of_leaf meets]
          exact leaf value
      | cut =>
          rw [walkWithin_of_cut meets, walkWithin_of_cut meets]
          exact cut
      | whole handle cell =>
          rw [walkWithin_of_whole meets, walkWithin_of_whole meets]
          exact whole cell _ _ fun item _ =>
            inductionHypothesis (handle :: opened) item

/-- What is true of leaves and cuts, and of a whole if it is true of the
parts, is true of whatever is made. -/
theorem of_walkWithin
    (property : β → Prop)
    (leaf : ∀ value, property (rendering.leaf value))
    (cut : property rendering.cut)
    (whole : ∀ cell parts, (∀ part ∈ parts, property part) →
      property (rendering.whole cell parts))
    (depth : Nat)
    (opened : List Handle)
    (value : Value) : property (rendering.walkWithin heap depth opened value) :=
  walkWithin_related rendering (fun made _ => property made) leaf cut
    (fun cell _ _ each => whole cell _ (List.forall_mem_map.mpr each)) depth
    opened value

/-- What keeps to the rules of the bounded recursion is made by it. -/
theorem eq_walkWithin
    {made : Nat → List Handle → Value → β}
    (leaf : ∀ depth opened value, value.container? = none →
      made depth opened value = rendering.leaf value)
    (bound : ∀ opened value handle, value.container? = some handle →
      made 0 opened value = rendering.cut)
    (further : ∀ depth opened value handle, value.container? = some handle →
      made (depth + 1) opened value =
        match heap.inside? value with
        | none => rendering.cut
        | some cell =>
            if handle ∈ opened then rendering.cut
            else rendering.whole cell
              (cell.values.map (made depth (handle :: opened))))
    (depth : Nat)
    (opened : List Handle)
    (value : Value) :
    made depth opened value = rendering.walkWithin heap depth opened value := by
  induction depth generalizing opened value with
  | zero =>
      cases isContainer : value.container? with
      | none =>
          rw [leaf 0 opened value isContainer,
            walkWithin_of_leaf (Heap.meet_of_container?_eq_none isContainer)]
      | some handle =>
          rw [bound opened value handle isContainer,
            walkWithin_zero_of_container isContainer]
  | succ depth inductionHypothesis =>
      cases isContainer : value.container? with
      | none =>
          rw [leaf _ opened value isContainer,
            walkWithin_of_leaf (Heap.meet_of_container?_eq_none isContainer)]
      | some handle =>
          rw [further depth opened value handle isContainer]
          cases found : heap.inside? value with
          | none =>
              rw [walkWithin_of_cut
                (Heap.meet_of_inside?_eq_none isContainer found)]
          | some cell =>
              rw [walkWithin, Heap.meet_of_inside? isContainer found]
              split_ifs
              · rfl
              · rw [funext (inductionHypothesis (handle :: opened))]

/-- The parts of an object stay with their names. -/
theorem keys_zip_map {γ : Type} (fields : Fields Value) (part : Value → γ) :
    fields.keys.zip ((Cell.object fields).values.map part) =
      fields.entries.map fun entry => (entry.1, part entry.2) := by
  simp only [Fields.keys, Cell.values, List.map_map, List.zip_map',
    Function.comp_apply]

/-- JSON is made by the bounded recursion. -/
theorem toJsonWithin_eq (depth : Nat) (opened : List Handle) (value : Value) :
    heap.toJsonWithin depth opened value =
      json.walkWithin heap depth opened value := by
  refine eq_walkWithin ?_ ?_ ?_ depth opened value
  · intro depth opened value noContainer
    cases value with
    | array handle => cases noContainer
    | object handle => cases noContainer
    | _ => cases depth <;> rfl
  · intro opened value handle isContainer
    cases value with
    | array handle => rfl
    | object handle => rfl
    | _ => cases isContainer
  · intro depth opened value handle isContainer
    cases value with
    | array held =>
        obtain rfl := Option.some.inj isContainer
        rcases found : heap.cell? held with _ | ⟨items | fields | content⟩ <;>
          simp only [Heap.toJsonWithin, Heap.inside?, found] <;> rfl
    | object held =>
        obtain rfl := Option.some.inj isContainer
        rcases found : heap.cell? held with _ | ⟨items | fields | content⟩ <;>
          simp only [Heap.toJsonWithin, Heap.inside?, found, json, keys_zip_map]
    | _ => cases isContainer

/-- Text is made by the bounded recursion. -/
theorem textWithin_eq (depth : Nat) (opened : List Handle) (value : Value) :
    heap.textWithin depth opened value =
      text.walkWithin heap depth opened value := by
  refine eq_walkWithin ?_ ?_ ?_ depth opened value
  · intro depth opened value noContainer
    cases value with
    | array handle => cases noContainer
    | object handle => cases noContainer
    | _ => cases depth <;> rfl
  · intro opened value handle isContainer
    cases value with
    | array handle => rfl
    | object handle => rfl
    | _ => cases isContainer
  · intro depth opened value handle isContainer
    cases value with
    | array held =>
        obtain rfl := Option.some.inj isContainer
        rcases found : heap.cell? held with _ | ⟨items | fields | content⟩ <;>
          simp only [Heap.textWithin, Heap.inside?, found] <;> rfl
    | object held =>
        obtain rfl := Option.some.inj isContainer
        rcases found : heap.cell? held with _ | ⟨items | fields | content⟩ <;>
          simp only [Heap.textWithin, Heap.inside?, found, text, keys_zip_map,
            List.map_map, Function.comp_def]
    | _ => cases isContainer

end Rendering

end CommonJs
