import CommonJs.Proofs.Json.Ordered
import CommonJs.Proofs.Value.Outline

/-!
# Values made of new cells

The value of JSON is made of new cells, from the inside out: the cells of a
part have numbers from an interval of their own, and the cell of the whole has
the number after them. So no cell of such a value is shared and none lies
inside itself, and the JSON is what the plain recursion makes of the value.
-/

namespace CommonJs

namespace Json

/-- JSON each of whose numbers is written as it is read. -/
inductive Steady : Json → Prop
  | null : Steady .null
  | bool (value : Bool) : Steady (.bool value)
  | number {value : JsonNumber} :
      numberToJson value.toFloat = .number value → Steady (.number value)
  | string (value : String) : Steady (.string value)
  | array {items : List Json} :
      (∀ item ∈ items, Steady item) → Steady (.array items)
  | object {members : List (String × Json)} :
      (∀ member ∈ members, Steady member.2) → Steady (.object members)

/-- The items of an array, or the values of the members of an object. -/
def parts : Json → List Json
  | .array items => items
  | .object members => members.map (·.2)
  | _ => []

/-- What is at a place in JSON, given by the positions on the way down. -/
def at? : Json → List Nat → Option Json
  | json, [] => some json
  | json, index :: position =>
      match json.parts[index]? with
      | some part => part.at? position
      | none => none

variable {json part : Json} {cell : Cell}

theorem Ordered.of_mem_parts
    (ordered : json.Ordered)
    (present : part ∈ json.parts) :
    part.Ordered := by
  cases ordered with
  | array each => exact each part present
  | object _ each =>
      obtain ⟨member, listed, rfl⟩ := List.mem_map.mp present
      exact each member listed
  | _ => cases present

theorem Steady.of_mem_parts
    (steady : json.Steady)
    (present : part ∈ json.parts) :
    part.Steady := by
  cases steady with
  | array each => exact each part present
  | object each =>
      obtain ⟨member, listed, rfl⟩ := List.mem_map.mp present
      exact each member listed
  | _ => cases present

section Sorting

variable {α : Type} {members sorted : List (String × α)}

/-- A member with a greater name comes last. -/
theorem insertMember_of_greater
    {key : String}
    {value : α}
    (greater : ∀ member ∈ members, member.1 < key) :
    insertMember key value members = members ++ [(key, value)] := by
  induction members with
  | nil => rfl
  | cons first others inductionHypothesis =>
      have before := greater first List.mem_cons_self
      rw [insertMember, if_neg (String.lt_asymm before),
        if_neg (ne_of_gt before),
        inductionHypothesis fun member present =>
          greater member (List.mem_cons_of_mem _ present)]
      rfl

/-- Members that are in order stay as they are. -/
theorem Ascending.sortMembers_eq (ascending : Ascending members) :
    sortMembers members = members := by
  induction members using List.reverseRecOn with
  | nil => rfl
  | append_singleton others last inductionHypothesis =>
      obtain ⟨before, -, below⟩ := List.pairwise_append.mp ascending
      rw [sortMembers, List.foldl_append]
      show Json.insertMember last.1 last.2 (sortMembers others) = _
      rw [inductionHypothesis before]
      exact insertMember_of_greater fun member present =>
        below member present last (List.mem_singleton.mpr rfl)

end Sorting

/-- A cell has a value for each part of JSON, and the same keys in the same
order. -/
inductive Matches : Json → Cell → Prop
  | array {items : List Json} {values : List Value} :
      items.length = values.length → Matches (.array items) (.array values)
  | object {members : List (String × Json)} {fields : Fields Value} :
      members.map (·.1) = fields.keys →
        Matches (.object members) (.object fields)

theorem Matches.length_eq
    (same : json.Matches cell) : json.parts.length = cell.values.length := by
  cases same with
  | array lengths => exact lengths
  | object keys =>
      have lengths := congrArg List.length keys
      simpa only [parts, Cell.values, Fields.keys, List.length_map]
        using lengths

/-- The parts put together in a cell with the same keys. -/
theorem Matches.whole_parts_eq
    (same : json.Matches cell)
    (ordered : json.Ordered) :
    Rendering.json.whole cell json.parts = json := by
  cases same with
  | array _ => rfl
  | @object members fields keys =>
      cases ordered with
      | object ascending _ =>
          show Json.object
            (sortMembers (fields.keys.zip (members.map (·.2)))) = _
          have together : (members.map (·.1)).zip (members.map (·.2)) =
              members := by
            rw [List.zip_map']
            exact List.map_id members
          rw [← keys, together, ascending.sortMembers_eq]

end Json

namespace Heap

variable {heap before after later : Heap} {json : Json} {value : Value}
  {low high : Nat}

/-- Nothing happened to the cells that were there. -/
def KeepsCells (before after : Heap) : Prop :=
  ∀ handle cell, before.cell? handle = some cell →
    after.cell? handle = some cell

theorem KeepsCells.refl (heap : Heap) : heap.KeepsCells heap :=
  fun _ _ found => found

theorem KeepsCells.trans
    (first : before.KeepsCells after)
    (second : after.KeepsCells later) : before.KeepsCells later :=
  fun handle cell found => second handle cell (first handle cell found)

theorem keepsCells_allocate (heap : Heap) (cell : Cell) :
    heap.KeepsCells (heap.allocate cell).2 := by
  intro handle other found
  rw [cell?_allocate, if_neg (Nat.ne_of_lt (index_lt_size found)), found]

/-- What lies in a cell that is kept is kept. -/
theorem KeepsCells.inside?_eq
    {cell : Cell}
    (keeps : before.KeepsCells after)
    (found : before.inside? value = some cell) :
    after.inside? value = some cell := by
  unfold inside? at found ⊢
  split at found
  next handle =>
    split at found
    next items isArray =>
      simp only [keeps handle _ isArray]
      exact found
    next => cases found
  next handle =>
    split at found
    next fields isObject =>
      simp only [keeps handle _ isObject]
      exact found
    next => cases found
  next => cases found

/-- A new array has its items. -/
theorem inside?_allocate_array (heap : Heap) (values : List Value) :
    (heap.allocate (.array values)).2.inside? (.array ⟨heap.size⟩) =
      some (.array values) := by
  simp [inside?, cell?_allocate]

/-- A new object has its fields. -/
theorem inside?_allocate_object (heap : Heap) (fields : Fields Value) :
    (heap.allocate (.object fields)).2.inside? (.object ⟨heap.size⟩) =
      some (.object fields) := by
  simp [inside?, cell?_allocate]

/-! ## Values made of new cells -/

/-- JSON that needs no cell, and its value. -/
inductive Leaf : Json → Value → Prop
  | null : Leaf .null .null
  | bool (value : Bool) : Leaf (.bool value) (.bool value)
  | number (value : JsonNumber) : Leaf (.number value) (.number value.toFloat)
  | string (value : String) : Leaf (.string value) (.string value)

/-- A value has JSON as its tree, and the cells of the tree are those with
numbers from `low` and below `high`. The parts have their intervals one after
the other, and the cell of the whole comes last. -/
inductive Grown (heap : Heap) : Json → Value → Nat → Nat → Prop
  | leaf {json : Json} {value : Value} (low : Nat) :
      Leaf json value → Grown heap json value low low
  | whole {json : Json} {value : Value} {cell : Cell} {bound : Nat → Nat} :
      value.container? = some ⟨bound json.parts.length⟩ →
      heap.inside? value = some cell →
      json.Matches cell →
      (∀ (index : Nat) (part : Json) (item : Value),
        json.parts[index]? = some part →
        cell.values[index]? = some item →
        Grown heap part item (bound index) (bound (index + 1))) →
      Grown heap json value (bound 0) (bound json.parts.length + 1)

/-- New cells elsewhere do not change what was made. -/
theorem Grown.mono
    (grown : before.Grown json value low high)
    (keeps : before.KeepsCells after) : after.Grown json value low high := by
  induction grown with
  | leaf low isLeaf => exact .leaf low isLeaf
  | whole isContainer found same _ inductionHypothesis =>
      exact .whole isContainer (keeps.inside?_eq found) same inductionHypothesis

/-- Bounds that never go down. -/
theorem bound_le
    {bound : Nat → Nat}
    {count : Nat}
    (steps : ∀ index < count, bound index ≤ bound (index + 1))
    {first last : Nat}
    (before : first ≤ last)
    (within : last ≤ count) : bound first ≤ bound last := by
  induction last, before using Nat.le_induction with
  | base => exact Nat.le_refl _
  | succ last _ inductionHypothesis =>
      exact Nat.le_trans (inductionHypothesis (Nat.le_of_succ_le within))
        (steps last within)

/-- A number from the first bound and below the last one is between two
bounds. -/
theorem exists_bound
    {bound : Nat → Nat}
    {count number : Nat}
    (least : bound 0 ≤ number)
    (below : number < bound count) :
    ∃ index < count, bound index ≤ number ∧ number < bound (index + 1) := by
  induction count with
  | zero => omega
  | succ count inductionHypothesis =>
      rcases Nat.lt_or_ge number (bound count) with before | after
      · obtain ⟨index, inside, between⟩ := inductionHypothesis before
        exact ⟨index, Nat.lt_succ_of_lt inside, between⟩
      · exact ⟨count, Nat.lt_succ_self count, after, below⟩

/-- Every part has a value in the cell, and the other way round. -/
theorem exists_item
    {cell : Cell}
    (same : json.Matches cell)
    {index : Nat}
    (inside : index < json.parts.length) :
    ∃ part item, json.parts[index]? = some part ∧
      cell.values[index]? = some item :=
  ⟨_, _, List.getElem?_eq_getElem inside,
    List.getElem?_eq_getElem (same.length_eq ▸ inside)⟩

theorem Grown.le (grown : heap.Grown json value low high) : low ≤ high := by
  induction grown with
  | leaf low _ => exact Nat.le_refl low
  | @whole json value cell bound _ _ same _ inductionHypothesis =>
      refine Nat.le_succ_of_le
        (bound_le (fun index inside => ?_) (Nat.zero_le _) (Nat.le_refl _))
      obtain ⟨part, item, isPart, listed⟩ := exists_item same inside
      exact inductionHypothesis index part item isPart listed

/-- The values in a cell have the parts of JSON as their trees, with intervals
one after the other. -/
def GrownParts
    (heap : Heap)
    (json : Json)
    (cell : Cell)
    (bound : Nat → Nat) : Prop :=
  ∀ (index : Nat) (part : Json) (item : Value), json.parts[index]? = some part →
    cell.values[index]? = some item →
      heap.Grown part item (bound index) (bound (index + 1))

section Intervals

variable {cell : Cell} {bound : Nat → Nat}

/-- The intervals of the parts of a cell. -/
theorem bound_le_of_grown
    (same : json.Matches cell)
    (each : heap.GrownParts json cell bound)
    {first last : Nat}
    (before : first ≤ last)
    (within : last ≤ json.parts.length) : bound first ≤ bound last := by
  refine bound_le (fun index inside => ?_) before within
  obtain ⟨part, item, isPart, listed⟩ := exists_item same inside
  exact (each index part item isPart listed).le

/-- Each item of a cell is made of cells of its own. -/
theorem exists_grown
    (same : json.Matches cell)
    (each : heap.GrownParts json cell bound)
    {index : Nat}
    {item : Value}
    (listed : cell.values[index]? = some item) :
    ∃ part, json.parts[index]? = some part ∧ index < json.parts.length ∧
      heap.Grown part item (bound index) (bound (index + 1)) := by
  have inside : index < json.parts.length :=
    same.length_eq ▸ (List.getElem?_eq_some_iff.mp listed).1
  have isPart := List.getElem?_eq_getElem inside
  exact ⟨_, isPart, inside, each index _ item isPart listed⟩

end Intervals

/-- The cell of a value is in the interval of the value. -/
theorem Grown.container
    {handle : Handle}
    (grown : heap.Grown json value low high)
    (isContainer : value.container? = some handle) :
    low ≤ handle.index ∧ handle.index < high := by
  cases grown with
  | leaf low isLeaf => cases isLeaf <;> cases isContainer
  | whole isHandle _ same each =>
      obtain rfl := Option.some.inj (isHandle.symm.trans isContainer)
      exact ⟨bound_le_of_grown same each (Nat.zero_le _) (Nat.le_refl _),
        Nat.lt_succ_self _⟩

/-- A cell of the interval holds cells of the interval, and they come before
it. -/
theorem Grown.descends
    {outer inner : Handle}
    (grown : heap.Grown json value low high)
    (least : low ≤ outer.index)
    (below : outer.index < high)
    (contains : heap.Contains outer inner) :
    (low ≤ inner.index ∧ inner.index < high) ∧ inner.index < outer.index := by
  induction grown with
  | leaf low _ => omega
  | @whole json value cell bound isHandle found same each inductionHypothesis =>
      have ends {index : Nat} (inside : index < json.parts.length) :
          bound 0 ≤ bound index ∧ bound (index + 1) ≤ bound json.parts.length :=
        ⟨bound_le_of_grown same each (Nat.zero_le _) (Nat.le_of_lt inside),
          bound_le_of_grown same each inside (Nat.le_refl _)⟩
      rcases Nat.lt_succ_iff_lt_or_eq.mp below with deeper | last
      · obtain ⟨index, inside, first, between⟩ := exists_bound least deeper
        obtain ⟨part, item, isPart, listed⟩ := exists_item same inside
        have descends :=
          inductionHypothesis index part item isPart listed first between
        have endsInside := ends inside
        omega
      · obtain rfl : outer = ⟨bound json.parts.length⟩ :=
          congrArg Handle.mk last
        obtain ⟨other, isOther, item, present, isInner⟩ := contains
        rw [cell?_of_inside? isHandle found] at isOther
        obtain rfl := Option.some.inj isOther
        obtain ⟨index, listed⟩ := List.getElem?_of_mem present
        obtain ⟨part, _, inside, grown⟩ := exists_grown same each listed
        have innerInside := grown.container isInner
        have endsInside := ends inside
        show (_ ∧ _) ∧ inner.index < bound json.parts.length
        omega

/-- What is made of JSON does not contain itself. -/
theorem Grown.acyclic
    (grown : heap.Grown json value low high) : heap.Acyclic value := by
  refine acyclic_of_descends
    (fun handle => low ≤ handle.index ∧ handle.index < high)
    (fun handle => grown.container) ?_
  rintro outer inner ⟨least, below⟩ contains
  exact grown.descends least below contains

/-- Only the new cells are reached. -/
theorem Grown.reaches
    {handle : Handle}
    (grown : heap.Grown json value low high)
    (reaches : heap.Reaches value handle) :
    low ≤ handle.index ∧ handle.index < high := by
  obtain ⟨first, isFirst, leads⟩ := reaches
  induction leads with
  | refl => exact grown.container isFirst
  | tail _ contains inductionHypothesis =>
      exact (grown.descends inductionHypothesis.1 inductionHypothesis.2
        contains).1

/-- What stands below the whole is in the interval of one of the parts. -/
theorem exists_interval
    {cell : Cell}
    {bound : Nat → Nat}
    (same : json.Matches cell)
    (each : heap.GrownParts json cell bound)
    {index : Nat}
    {item held : Value}
    (listed : cell.values[index]? = some item)
    {position : List Nat}
    {enclosing : List Handle}
    (occurs : heap.Occurs item position enclosing held)
    {handle : Handle}
    (isHeld : held.container? = some handle) :
    index < json.parts.length ∧ bound index ≤ handle.index ∧
      handle.index < bound (index + 1) := by
  obtain ⟨part, _, inside, grown⟩ := exists_grown same each listed
  exact ⟨inside, grown.reaches (occurs.reaches isHeld)⟩

/-- No cell stands at two places. -/
theorem Grown.position_eq
    {position otherPosition : List Nat}
    {enclosing otherEnclosing : List Handle}
    {held other : Value}
    {handle : Handle}
    (grown : heap.Grown json value low high)
    (occurs : heap.Occurs value position enclosing held)
    (isHeld : held.container? = some handle)
    (otherOccurs : heap.Occurs value otherPosition otherEnclosing other)
    (isOther : other.container? = some handle) : position = otherPosition := by
  induction grown generalizing position otherPosition enclosing
    otherEnclosing with
  | @leaf json value low isLeaf =>
      have noContainer : value.container? = none := by cases isLeaf <;> rfl
      cases occurs with
      | here => cases noContainer.symm.trans isHeld
      | inside isContainer _ _ _ => cases noContainer.symm.trans isContainer
  | @whole json value cell bound isHandle found same each inductionHypothesis =>
      have ordered {first last : Nat} (before : first ≤ last)
          (within : last ≤ json.parts.length) :
          bound first ≤ bound last := bound_le_of_grown same each before within
      cases occurs with
      | here =>
          obtain rfl := Option.some.inj (isHandle.symm.trans isHeld)
          cases otherOccurs with
          | here => rfl
          | inside _ otherFound listed further =>
              obtain rfl := Option.some.inj (found.symm.trans otherFound)
              obtain ⟨inside, _, below⟩ :=
                exists_interval same each listed further isOther
              exact absurd (ordered inside (Nat.le_refl _))
                (Nat.not_le.mpr below)
      | @inside _ item _ _ _ index _ _ _ firstFound isItem deeper =>
          obtain rfl := Option.some.inj (found.symm.trans firstFound)
          obtain ⟨inside, least, below⟩ :=
            exists_interval same each isItem deeper isHeld
          cases otherOccurs with
          | here =>
              obtain rfl := Option.some.inj (isHandle.symm.trans isOther)
              exact absurd (ordered inside (Nat.le_refl _))
                (Nat.not_le.mpr below)
          | @inside _ otherItem _ _ _ otherIndex _ _ _ otherFound isOtherItem
              otherDeeper =>
              obtain rfl := Option.some.inj (found.symm.trans otherFound)
              obtain ⟨otherInside, otherLeast, otherBelow⟩ :=
                exists_interval same each isOtherItem otherDeeper isOther
              rcases Nat.lt_trichotomy index otherIndex with before |
                rfl | after
              · have apart : bound (index + 1) ≤ bound otherIndex :=
                  ordered before (Nat.le_of_lt otherInside)
                omega
              · obtain rfl := Option.some.inj (isItem.symm.trans isOtherItem)
                obtain ⟨part, isPart, _⟩ := exists_grown same each isItem
                rw [inductionHypothesis index part item isPart isItem deeper
                  otherDeeper]
              · have apart : bound (otherIndex + 1) ≤ bound index :=
                  ordered after (Nat.le_of_lt inside)
                omega

/-- The recursion through the value finds the JSON again. -/
theorem Grown.plain
    (grown : heap.Grown json value low high)
    (ordered : json.Ordered)
    (steady : json.Steady) : Rendering.json.Plain heap value json := by
  induction grown with
  | leaf low isLeaf =>
      cases isLeaf with
      | null => exact .leaf rfl
      | bool value => exact .leaf rfl
      | string value => exact .leaf rfl
      | number value =>
          cases steady with
          | number written => exact written ▸ .leaf rfl
  | @whole json value cell bound isHandle found same each inductionHypothesis =>
      rw [← same.whole_parts_eq ordered]
      refine .whole isHandle found same.length_eq
        fun index item part listed isPart => ?_
      have present := List.mem_of_getElem? isPart
      exact inductionHypothesis index part item isPart listed
        (ordered.of_mem_parts present) (steady.of_mem_parts present)

/-- What stands at a place of the value is made of what is at this place of
the JSON. -/
theorem Grown.at?
    {position : List Nat}
    {enclosing : List Handle}
    {held : Value}
    (grown : heap.Grown json value low high)
    (occurs : heap.Occurs value position enclosing held) :
    ∃ part low high, json.at? position = some part ∧
      heap.Grown part held low high := by
  induction occurs generalizing json low high with
  | here value => exact ⟨json, low, high, by rw [Json.at?], grown⟩
  | inside isContainer found listed _ inductionHypothesis =>
      cases grown with
      | leaf low isLeaf => cases isLeaf <;> cases isContainer
      | whole _ sameFound same each =>
          obtain rfl := Option.some.inj (found.symm.trans sameFound)
          obtain ⟨part, isPart, -, grown⟩ := exists_grown same each listed
          rw [Json.at?, isPart]
          exact inductionHypothesis grown

/-- The keys of an object are those of the JSON, in the same order. -/
theorem Grown.keys
    {handle : Handle}
    (grown : heap.Grown json (.object handle) low high) :
    ∃ members fields, json = .object members ∧
      heap.cell? handle = some (.object fields) ∧
      fields.keys = members.map (·.1) := by
  cases grown with
  | leaf low isLeaf => cases isLeaf
  | whole isContainer found same _ =>
      have isCell := cell?_of_inside? rfl found
      cases same with
      | object keys => exact ⟨_, _, rfl, isCell, keys.symm⟩
      | array _ =>
          simp only [inside?] at found
          split at found <;> cases found

end Heap
end CommonJs
