import CommonJs.Proofs.Value.Handles
import Mathlib.Data.Set.Card
import Mathlib.Logic.Relation

/-!
# Cells inside cells

An array or an object holds values, which may be arrays and objects again, and
nothing keeps a cell from lying inside itself. So a value has as many places
as there are ways down from it: each place is reached by the positions taken
on the way, and is enclosed by the cells that the way goes through. A heap
that is made cell by cell and changed in place holds only handles that stand
for cells of their own kind, whichever cells contain one another.
-/

namespace CommonJs

/-- The handle of an array or an object. Values of the host have no inside. -/
def Value.container? : Value → Option Handle
  | .array handle => some handle
  | .object handle => some handle
  | _ => none

namespace Heap

/-- The cell of an array or an object. -/
def inside? (heap : Heap) : Value → Option Cell
  | .array handle =>
      match heap.cell? handle with
      | some (.array items) => some (.array items)
      | _ => none
  | .object handle =>
      match heap.cell? handle with
      | some (.object fields) => some (.object fields)
      | _ => none
  | _ => none

/-- One cell holds an array or an object that has the other as its cell. -/
def Contains (heap : Heap) (outer inner : Handle) : Prop :=
  ∃ cell, heap.cell? outer = some cell ∧ ∃ value ∈ cell.values,
    value.container? = some inner

/-- A cell lies inside a value, at any depth. -/
def Reaches (heap : Heap) (value : Value) (handle : Handle) : Prop :=
  ∃ first, value.container? = some first ∧
    Relation.ReflTransGen heap.Contains first handle

/-- No cell inside a value lies inside itself. -/
def Acyclic (heap : Heap) (value : Value) : Prop :=
  ∀ handle, heap.Reaches value handle →
    ¬ Relation.TransGen heap.Contains handle handle

/-- At a place inside a value, given by the positions on the way down, stands
a value. The cells on the way enclose it, the innermost one first. -/
inductive Occurs (heap : Heap) : Value → List Nat → List Handle → Value → Prop
  | here (value : Value) : Occurs heap value [] [] value
  | inside
      {holder item value : Value}
      {handle : Handle}
      {cell : Cell}
      {index : Nat}
      {position : List Nat}
      {enclosing : List Handle} :
      holder.container? = some handle → heap.inside? holder = some cell →
      cell.values[index]? = some item →
      Occurs heap item position enclosing value →
      Occurs heap holder (index :: position) (enclosing ++ [handle]) value

variable {heap : Heap} {value root : Value} {handle : Handle} {cell : Cell}

theorem cell?_of_inside?
    (isContainer : value.container? = some handle)
    (found : heap.inside? value = some cell) :
    heap.cell? handle = some cell := by
  unfold inside? at found
  split at found
  · obtain rfl := Option.some.inj isContainer
    split at found
    next items isCell => rw [isCell, ← Option.some.inj found]
    next => cases found
  · obtain rfl := Option.some.inj isContainer
    split at found
    next fields isCell => rw [isCell, ← Option.some.inj found]
    next => cases found
  · cases found

/-- What lies in a cell is contained in it. -/
theorem Contains.of_inside?
    {index : Nat}
    {item : Value}
    {inner : Handle}
    (isContainer : value.container? = some handle)
    (found : heap.inside? value = some cell)
    (listed : cell.values[index]? = some item)
    (isInner : item.container? = some inner) : heap.Contains handle inner :=
  ⟨cell, cell?_of_inside? isContainer found, item,
    List.mem_of_getElem? listed, isInner⟩

/-- The cells inside a value are finitely many. -/
theorem finite_reaches (heap : Heap) (value : Value) :
    {handle | heap.Reaches value handle}.Finite := by
  let held :=
    heap.cells.toList.flatMap fun cell => cell.values.filterMap Value.container?
  refine Set.Finite.subset
    (List.finite_toSet (value.container?.toList ++ held)) ?_
  rintro handle ⟨first, isFirst, leads⟩
  rw [Set.mem_ofPred_eq, List.mem_append]
  rcases Relation.ReflTransGen.cases_tail leads with rfl |
    ⟨outer, _, cell, found, item, listed, isInner⟩
  · exact .inl (by simp [isFirst])
  · refine .inr (List.mem_flatMap.mpr
      ⟨cell, ?_, List.mem_filterMap.mpr ⟨item, listed, isInner⟩⟩)
    exact List.mem_of_getElem? ((Array.getElem?_toList ..).trans found)

/-- Where the cells in a cell come before it, no cell lies inside itself. -/
theorem acyclic_of_descends
    (among : Handle → Prop)
    (begins : ∀ handle, value.container? = some handle → among handle)
    (descends : ∀ outer inner, among outer → heap.Contains outer inner →
      among inner ∧ inner.index < outer.index) : heap.Acyclic value := by
  have below {outer inner : Handle} (isAmong : among outer)
      (inside : Relation.TransGen heap.Contains outer inner) :
      among inner ∧ inner.index < outer.index := by
    induction inside with
    | single contains => exact descends _ _ isAmong contains
    | tail _ contains inductionHypothesis =>
        obtain ⟨isAmong, before⟩ := inductionHypothesis
        obtain ⟨isInnerAmong, innerBefore⟩ := descends _ _ isAmong contains
        exact ⟨isInnerAmong, Nat.lt_trans innerBefore before⟩
  rintro handle ⟨first, isFirst, leads⟩ loop
  have isAmong : among handle := by
    rcases Relation.reflTransGen_iff_eq_or_transGen.mp leads with rfl | inside
    · exact begins handle isFirst
    · exact (below (begins first isFirst) inside).1
  exact Nat.lt_irrefl _ (below isAmong loop).2

namespace Occurs

variable {position : List Nat} {enclosing : List Handle}

/-- A place inside a cell is one step further down. -/
theorem child
    (occurs : heap.Occurs root position enclosing value)
    (isContainer : value.container? = some handle)
    (found : heap.inside? value = some cell)
    {index : Nat}
    {item : Value}
    (listed : cell.values[index]? = some item) :
    heap.Occurs root (position ++ [index]) (handle :: enclosing) item := by
  induction occurs with
  | here _ => exact .inside isContainer found listed (.here item)
  | inside isOuter inOuter isHere _ inductionHypothesis =>
      exact .inside isOuter inOuter isHere
        (inductionHypothesis isContainer found)

/-- What stands somewhere inside a value lies inside it. -/
theorem reaches
    (occurs : heap.Occurs root position enclosing value)
    (isContainer : value.container? = some handle) :
    heap.Reaches root handle := by
  induction occurs with
  | here _ => exact ⟨handle, isContainer, .refl⟩
  | inside isOuter inOuter isHere _ inductionHypothesis =>
      obtain ⟨first, isFirst, leads⟩ := inductionHypothesis isContainer
      exact ⟨_, isOuter,
        .head (.of_inside? isOuter inOuter isHere isFirst) leads⟩

/-- The cells around a place lie inside the value. -/
theorem reaches_of_mem
    (occurs : heap.Occurs root position enclosing value)
    (encloses : handle ∈ enclosing) : heap.Reaches root handle := by
  induction occurs with
  | here _ => cases encloses
  | inside isOuter inOuter isHere _ inductionHypothesis =>
      rcases List.mem_append.mp encloses with encloses | isLast
      · obtain ⟨first, isFirst, leads⟩ := inductionHypothesis encloses
        exact ⟨_, isOuter,
          .head (.of_inside? isOuter inOuter isHere isFirst) leads⟩
      · obtain rfl := List.mem_singleton.mp isLast
        exact ⟨_, isOuter, .refl⟩

/-- What stands somewhere inside a value lies inside each of the cells around
the place. -/
theorem contains_of_mem
    {outer : Handle}
    (occurs : heap.Occurs root position enclosing value)
    (encloses : outer ∈ enclosing)
    (isContainer : value.container? = some handle) :
    Relation.TransGen heap.Contains outer handle := by
  induction occurs with
  | here _ => cases encloses
  | inside isOuter inOuter isHere further inductionHypothesis =>
      rcases List.mem_append.mp encloses with encloses | isLast
      · exact inductionHypothesis encloses isContainer
      · obtain rfl := List.mem_singleton.mp isLast
        obtain ⟨first, isFirst, leads⟩ := further.reaches isContainer
        exact .head' (.of_inside? isOuter inOuter isHere isFirst) leads

end Occurs

/-! ## Heaps that are made step by step -/

/-- A cell is of the kind that a value says. -/
def Suits : Cell → Value → Prop
  | .array _, .array _ => True
  | .object _, .object _ => True
  | .host _, .host _ => True
  | _, _ => False

theorem Suits.array
    {items : List Value}
    (suits : Suits (.array items) value)
    (others : List Value) : Suits (.array others) value := by
  cases value <;> exact suits

theorem Suits.object
    {fields : Fields Value}
    (suits : Suits (.object fields) value)
    (others : Fields Value) : Suits (.object others) value := by
  cases value <;> exact suits

/-- A value is no cell, or a cell of its own kind. -/
def Holds (heap : Heap) (value : Value) : Prop :=
  ∀ handle, value.handle? = some handle →
    ∃ cell, heap.cell? handle = some cell ∧ Suits cell value

/-- A heap that is made of new cells and of changes of fields and items, in
any order. Whatever the heap holds may be put into a cell, also the cell
itself. -/
inductive Built : Heap → Prop
  | empty : Built .empty
  | allocate {heap : Heap} (cell : Cell) :
      Built heap → (∀ value ∈ cell.values, heap.Holds value) →
        Built (heap.allocate cell).2
  | set {heap after : Heap} {target value : Value} {key : String} :
      Built heap → heap.Holds value →
        heap.setField? target key value = some after → Built after
  | push {heap after : Heap} {target item : Value} :
      Built heap → heap.Holds item → heap.pushItem? target item = some after →
        Built after
  | remove {heap after : Heap} {target removed : Value} {key : String} :
      Built heap → heap.removeField? target key = some (removed, after) →
        Built after

/-- Every cell holds only what the heap holds. -/
def Sound (heap : Heap) : Prop :=
  ∀ handle cell, heap.cell? handle = some cell → ∀ value ∈ cell.values,
    heap.Holds value

/-- A handle with a cell is one of those given out. -/
theorem index_lt_size
    (found : heap.cell? handle = some cell) : handle.index < heap.size :=
  (Array.getElem?_eq_some_iff.mp found).1

/-- The cells around a place are cells of the heap. -/
theorem Occurs.index_lt_size_of_mem
    {position : List Nat}
    {enclosing : List Handle}
    (occurs : heap.Occurs root position enclosing value)
    (encloses : handle ∈ enclosing) : handle.index < heap.size := by
  induction occurs with
  | here _ => cases encloses
  | inside isContainer found _ _ inductionHypothesis =>
      rcases List.mem_append.mp encloses with encloses | isLast
      · exact inductionHypothesis encloses
      · obtain rfl := List.mem_singleton.mp isLast
        exact index_lt_size (cell?_of_inside? isContainer found)

/-- What a heap holds stays when a cell is added. -/
theorem Holds.allocate (holds : heap.Holds value) (other : Cell) :
    (heap.allocate other).2.Holds value := by
  intro handle isHandle
  obtain ⟨cell, found, suits⟩ := holds handle isHandle
  refine ⟨cell, ?_, suits⟩
  rw [cell?_allocate, if_neg (Nat.ne_of_lt (index_lt_size found)), found]

/-- A cell that is put takes the place of the one before. -/
theorem cell?_put
    (found : heap.cell? handle = some cell)
    (changed : Handle)
    (other : Cell) :
    (heap.put changed other).cell? handle =
      some (if changed = handle then other else cell) := by
  rw [cell?_put_eq_ite]
  by_cases same : changed = handle
  · rw [if_pos same, if_pos same, if_pos (same ▸ index_lt_size found)]
  · rw [if_neg same, if_neg same, found]

/-- What a heap holds stays when a cell changes to another of its kind. -/
theorem Holds.put
    (holds : heap.Holds value)
    (found : heap.cell? handle = some cell)
    {other : Cell}
    (sameKind : ∀ value, Suits cell value → Suits other value) :
    (heap.put handle other).Holds value := by
  intro held isHandle
  obtain ⟨content, isContent, suits⟩ := holds held isHandle
  refine ⟨_, cell?_put isContent handle other, ?_⟩
  by_cases same : handle = held
  · subst same
    obtain rfl := Option.some.inj (found.symm.trans isContent)
    rw [if_pos rfl]
    exact sameKind value suits
  · rwa [if_neg same]

/-- A cell of the same kind with values that the heap holds. -/
theorem Sound.put
    (sound : heap.Sound)
    (found : heap.cell? handle = some cell)
    {other : Cell}
    (sameKind : ∀ value, Suits cell value → Suits other value)
    (held : ∀ value ∈ other.values, heap.Holds value) :
    (heap.put handle other).Sound := by
  intro holder content isContent value listed
  refine Holds.put ?_ found sameKind
  have known : holder.index < heap.size := by
    simpa using index_lt_size isContent
  have isThere : heap.cell? holder = some heap.cells[holder.index] :=
    Array.getElem?_eq_getElem known
  rw [cell?_put isThere] at isContent
  obtain rfl := Option.some.inj isContent
  split at listed
  · exact held value listed
  · exact sound holder _ isThere value listed

namespace Built

/-- The cells of a heap that is made step by step hold only what the heap
holds. -/
theorem sound (built : heap.Built) : heap.Sound := by
  induction built with
  | empty =>
      intro handle cell found
      exact absurd (index_lt_size found) (Nat.not_lt_zero _)
  | allocate other _ held inductionHypothesis =>
      intro handle cell found value listed
      rw [cell?_allocate] at found
      split at found
      · obtain rfl := Option.some.inj found
        exact (held value listed).allocate other
      · exact (inductionHypothesis handle cell found value listed).allocate
          other
  | set _ held changed inductionHypothesis =>
      unfold setField? at changed
      split at changed
      next handle fields isObject =>
        obtain ⟨_, isHandle, found⟩ := cell?_of_fields? isObject
        obtain rfl := Value.object.inj isHandle
        obtain rfl := Option.some.inj changed
        refine inductionHypothesis.put found (fun _ suits => suits.object _)
          fun other listed => ?_
        rcases Fields.mem_of_mem_set listed with rfl | listed
        · exact held
        · exact inductionHypothesis handle _ found other listed
      next => cases changed
  | push _ held changed inductionHypothesis =>
      unfold pushItem? at changed
      split at changed
      next handle items isArray =>
        obtain ⟨_, isHandle, found⟩ := cell?_of_items? isArray
        obtain rfl := Value.array.inj isHandle
        obtain rfl := Option.some.inj changed
        refine inductionHypothesis.put found (fun _ suits => suits.array _)
          fun other listed => ?_
        rcases List.mem_append.mp listed with listed | pushed
        · exact inductionHypothesis handle _ found other listed
        · exact List.mem_singleton.mp pushed ▸ held
      next => cases changed
  | remove _ changed inductionHypothesis =>
      unfold removeField? at changed
      split at changed
      next handle fields isObject =>
        obtain ⟨_, isHandle, found⟩ := cell?_of_fields? isObject
        obtain rfl := Value.object.inj isHandle
        obtain ⟨-, rfl⟩ := Prod.mk.inj (Option.some.inj changed)
        exact inductionHypothesis.put found (fun _ suits => suits.object _)
          fun other listed =>
            inductionHypothesis handle _ found other
              (Fields.mem_of_mem_remove listed)
      next => cases changed

end Built

/-- An array or an object that the heap holds has an inside. -/
theorem Holds.exists_inside?
    (holds : heap.Holds value)
    (isContainer : value.container? = some handle) :
    ∃ cell, heap.inside? value = some cell := by
  cases value with
  | array held =>
      obtain ⟨cell, found, suits⟩ := holds held rfl
      cases cell with
      | array items => exact ⟨.array items, by rw [inside?, found]⟩
      | object fields => exact suits.elim
      | host content => exact suits.elim
  | object held =>
      obtain ⟨cell, found, suits⟩ := holds held rfl
      cases cell with
      | object fields => exact ⟨.object fields, by rw [inside?, found]⟩
      | array items => exact suits.elim
      | host content => exact suits.elim
  | _ => cases isContainer

/-- What stands somewhere inside a value that the heap holds is held. -/
theorem Occurs.holds
    {position : List Nat}
    {enclosing : List Handle}
    (occurs : heap.Occurs root position enclosing value)
    (sound : heap.Sound)
    (held : heap.Holds root) : heap.Holds value := by
  induction occurs with
  | here _ => exact held
  | inside isContainer found listed _ inductionHypothesis =>
      exact inductionHypothesis
        (sound _ _ (cell?_of_inside? isContainer found) _
          (List.mem_of_getElem? listed))

end Heap
end CommonJs
