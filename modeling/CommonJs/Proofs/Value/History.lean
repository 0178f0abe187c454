import CommonJs.Proofs.Value.Containment

/-!
# Objects and their histories

What an object holds is what its history says: a field has the value that it
was set to last, unless it has been removed since, and the fields are in the
order in which they came in, each counted from the last time that it was not
there before. To overwrite a field does not move it, and to remove one does
not move the others. All who hold the handle of an object write one history,
and no change of an object reaches another cell.
-/

namespace CommonJs

/-- A change to the fields of an object. -/
inductive FieldChange (α : Type)
  | set (key : String) (value : α)
  | remove (key : String)

namespace FieldChange

variable {α : Type}

/-- The field that is changed. -/
def key : FieldChange α → String
  | set key _ => key
  | remove key => key

/-- The value that the field is left with, if it is left with any. -/
def value? : FieldChange α → Option α
  | set _ value => some value
  | remove _ => none

/-- The names of the fields after a change, in order. -/
def keysAfter (change : FieldChange α) (keys : List String) : List String :=
  match change with
  | set key _ => if key ∈ keys then keys else keys ++ [key]
  | remove key => keys.filter (· ≠ key)

end FieldChange

namespace Fields

variable {α : Type} {fields : Fields α}

/-- The fields after a change. -/
def change (fields : Fields α) : FieldChange α → Fields α
  | .set key value => fields.set key value
  | .remove key => (fields.take key).2

/-- The fields after a history that starts without any. -/
def replay (history : List (FieldChange α)) : Fields α :=
  history.foldl change .empty

theorem replay_append_singleton
    (history : List (FieldChange α))
    (change : FieldChange α) :
    replay (history ++ [change]) = (replay history).change change := by
  rw [replay, List.foldl_append]
  rfl

/-! ## One change -/

theorem isSome_get? (fields : Fields α) (key : String) :
    (fields.get? key).isSome = true ↔ key ∈ fields.keys := by
  rw [get?, List.lookup_isSome_iff]
  simp [keys]

theorem lookup_cons_eq_ite
    (name : String)
    (value : α)
    (rest : List (String × α))
    (key : String) :
    ((name, value) :: rest).lookup key = if name = key then some value else
      rest.lookup key := by
  rw [List.lookup_cons]
  by_cases same : name = key
  · simp [same]
  · simp [same, beq_false_of_ne (Ne.symm same)]

/-- A new value in the place of another one is seen under its own name only. -/
theorem lookup_replaceEntry
    (key : String)
    (value : α)
    (entries : List (String × α))
    (other : String) :
    (replaceEntry key value entries).lookup other =
      (entries.lookup other).map fun held =>
        if key = other then value else held := by
  induction entries with
  | nil => rfl
  | cons entry rest inductionHypothesis =>
      obtain ⟨name, held⟩ := entry
      rw [replaceEntry, List.map_cons, ← replaceEntry, lookup_cons_eq_ite]
      by_cases replaced : name = key
      · rw [if_pos replaced, lookup_cons_eq_ite, inductionHypothesis, replaced]
        split_ifs <;> rfl
      · rw [if_neg replaced, lookup_cons_eq_ite, inductionHypothesis]
        by_cases found : name = other
        · rw [if_pos found, if_pos found, Option.map_some,
            if_neg (found ▸ Ne.symm replaced)]
        · rw [if_neg found, if_neg found]

/-- A field that is set has its new value, and the others keep theirs. -/
theorem get?_set
    (fields : Fields α)
    (key : String)
    (value : α)
    (other : String) :
    (fields.set key value).get? other =
      if key = other then some value else fields.get? other := by
  have isPresent := fields.isSome_get? key
  by_cases present : key ∈ fields.keys
  · rw [set, if_pos (by simpa [contains] using present), get?,
      lookup_replaceEntry, ← get?]
    by_cases same : key = other
    · subst same
      obtain ⟨held, found⟩ :=
        Option.isSome_iff_exists.mp (isPresent.mpr present)
      simp [found]
    · simp [same]
  · rw [set, if_neg (by simpa [contains] using present), get?,
      List.lookup_append, lookup_cons_eq_ite, List.lookup_nil, ← get?]
    by_cases same : key = other
    · subst same
      rw [← isPresent, Option.not_isSome_iff_eq_none] at present
      simp [present]
    · simp [same]

/-- A field that is removed is gone, and the others stay. -/
theorem get?_remove (fields : Fields α) (key other : String) :
    (fields.remove key).get? other =
      if key = other then none else fields.get? other := by
  obtain ⟨entries⟩ := fields
  unfold remove get?
  induction entries with
  | nil => simp
  | cons entry rest inductionHypothesis =>
      obtain ⟨name, held⟩ := entry
      by_cases removed : name = key
      · rw [List.filter_cons_of_neg (by simpa using removed),
          inductionHypothesis, lookup_cons_eq_ite, removed]
        split_ifs <;> rfl
      · rw [List.filter_cons_of_pos (by simpa using removed),
          lookup_cons_eq_ite, inductionHypothesis, lookup_cons_eq_ite]
        by_cases found : name = other
        · rw [if_pos found, if_pos found, if_neg (found ▸ Ne.symm removed)]
        · rw [if_neg found, if_neg found]

/-- A change touches its own field only. -/
theorem get?_change
    (fields : Fields α)
    (change : FieldChange α)
    (key : String) :
    (fields.change change).get? key =
      if change.key = key then change.value? else fields.get? key := by
  cases change with
  | set changed value => exact fields.get?_set changed value key
  | remove changed => exact fields.get?_remove changed key

/-- A new field comes last, and an old one stays where it is. -/
theorem keys_set (fields : Fields α) (key : String) (value : α) :
    (fields.set key value).keys =
      if key ∈ fields.keys then fields.keys else fields.keys ++ [key] := by
  by_cases present : key ∈ fields.keys
  · rw [if_pos present, set, if_pos (by simpa [contains] using present)]
    simp only [keys, replaceEntry, List.map_map]
    refine List.map_congr_left fun entry _ => ?_
    rw [Function.comp_apply]
    split
    next same => exact same.symm
    next => rfl
  · rw [if_neg present, set, if_neg (by simpa [contains] using present)]
    simp [keys]

/-- The other fields stay in their order. -/
theorem keys_remove (fields : Fields α) (key : String) :
    (fields.remove key).keys = fields.keys.filter (· ≠ key) := by
  rw [keys, remove, keys, List.filter_map]
  rfl

theorem keys_change (fields : Fields α) (change : FieldChange α) :
    (fields.change change).keys = change.keysAfter fields.keys := by
  cases change with
  | set key value => exact fields.keys_set key value
  | remove key => exact fields.keys_remove key

/-! ## Histories -/

/-- The value that the last change of a field left it with. -/
def lastValue (history : List (FieldChange α)) (key : String) : Option α :=
  (history.filter fun change => change.key = key).getLast?.bind
    FieldChange.value?

/-- The change at a place of a history adds a field that was not there. -/
def EntersAt
    (history : List (FieldChange α))
    (key : String)
    (place : Nat) : Prop :=
  lastValue (history.take place) key = none ∧
    (lastValue (history.take (place + 1)) key).isSome = true

/-- The change at a place adds a field, and no later one adds it again. -/
structure LastEntersAt
    (history : List (FieldChange α))
    (key : String)
    (place : Nat) : Prop where
  /-- The field comes in at the place. -/
  enters : EntersAt history key place
  /-- It does not come in after that. -/
  last : ∀ other, EntersAt history key other → other ≤ place

/-- One field has come in before the other. -/
def EntersBefore
    (history : List (FieldChange α))
    (first second : String) : Prop :=
  ∃ place later,
    LastEntersAt history first place ∧ LastEntersAt history second later ∧
      place < later

/-- All fields have come in, one after the other. -/
structure InOrderOfEntry
    (history : List (FieldChange α))
    (keys : List String) : Prop where
  /-- Each field has come in. -/
  entered : ∀ key ∈ keys, ∃ place, LastEntersAt history key place
  /-- A field in front of another came in before it. -/
  ordered : keys.Pairwise (EntersBefore history)

section Histories

variable {history : List (FieldChange α)} {keys : List String} {key : String}
  {place : Nat}

/-- The last change to a field counts. -/
theorem lastValue_append_singleton
    (history : List (FieldChange α))
    (change : FieldChange α)
    (key : String) :
    lastValue (history ++ [change]) key =
      if change.key = key then change.value? else lastValue history key := by
  rw [lastValue, List.filter_append]
  by_cases same : change.key = key
  · simp [same]
  · simp [same, lastValue]

/-- Each field has the value that its last change left it with. -/
theorem get?_replay (history : List (FieldChange α)) (key : String) :
    (replay history).get? key = lastValue history key := by
  induction history using List.reverseRecOn with
  | nil => rfl
  | append_singleton history change inductionHypothesis =>
      rw [replay_append_singleton, get?_change, lastValue_append_singleton,
        inductionHypothesis]

/-- The fields that are there are those with a value. -/
theorem mem_keys_replay (history : List (FieldChange α)) (key : String) :
    key ∈ (replay history).keys ↔ (lastValue history key).isSome = true := by
  rw [← get?_replay, isSome_get?]

theorem EntersAt.lt_length
    (enters : EntersAt history key place) : place < history.length := by
  by_contra beyond
  obtain ⟨absent, present⟩ := enters
  rw [List.take_of_length_le (by omega)] at absent present
  simp [absent] at present

/-- One more change adds its own field, if that was not there, and no other. -/
theorem entersAt_append_singleton_iff
    (history : List (FieldChange α))
    (change : FieldChange α)
    (key : String)
    (place : Nat) :
    EntersAt (history ++ [change]) key place ↔
      EntersAt history key place ∨
        place = history.length ∧ lastValue history key = none ∧
          (lastValue (history ++ [change]) key).isSome = true := by
  rcases Nat.lt_trichotomy place history.length with before | rfl | beyond
  · have notEnd : place ≠ history.length := Nat.ne_of_lt before
    rw [EntersAt, EntersAt, List.take_append_of_le_length (Nat.le_of_lt before),
      List.take_append_of_le_length before]
    simp [notEnd]
  · have notBefore : ¬ EntersAt history key history.length := fun enters =>
      Nat.lt_irrefl _ enters.lt_length
    rw [EntersAt, List.take_left, List.take_of_length_le (by simp)]
    simp [notBefore]
  · have notBefore : ¬ EntersAt history key place := fun enters =>
      Nat.lt_asymm beyond enters.lt_length
    have notNow : ¬ EntersAt (history ++ [change]) key place := fun enters => by
      have within := enters.lt_length
      rw [List.length_append, List.length_singleton] at within
      omega
    simp [notBefore, notNow, Nat.ne_of_gt beyond]

/-- A field comes in for the last time only once. -/
theorem LastEntersAt.unique
    {other : Nat}
    (lastEnters : LastEntersAt history key place)
    (otherEnters : LastEntersAt history key other) : place = other :=
  Nat.le_antisymm (otherEnters.last place lastEnters.enters)
    (lastEnters.last other otherEnters.enters)

/-- A field that is there has come in already. -/
theorem LastEntersAt.append_singleton
    (lastEnters : LastEntersAt history key place)
    (present : (lastValue history key).isSome = true)
    (change : FieldChange α) :
    LastEntersAt (history ++ [change]) key place where
  enters := (entersAt_append_singleton_iff _ _ _ _).mpr (.inl lastEnters.enters)
  last other enters := by
    rcases (entersAt_append_singleton_iff _ _ _ _).mp enters with earlier |
      ⟨_, absent, _⟩
    · exact lastEnters.last other earlier
    · simp [absent] at present

/-- A field that was not there comes in now. -/
theorem LastEntersAt.of_absent
    {change : FieldChange α}
    (absent : lastValue history key = none)
    (present : (lastValue (history ++ [change]) key).isSome = true) :
    LastEntersAt (history ++ [change]) key history.length where
  enters :=
    (entersAt_append_singleton_iff _ _ _ _).mpr (.inr ⟨rfl, absent, present⟩)
  last other enters := by
    rcases (entersAt_append_singleton_iff _ _ _ _).mp enters with earlier |
      ⟨now, _, _⟩
    · exact Nat.le_of_lt earlier.lt_length
    · exact Nat.le_of_eq now

/-- No field comes in before itself. -/
theorem EntersBefore.ne
    {first second : String}
    (before : EntersBefore history first second) : first ≠ second := by
  rintro rfl
  obtain ⟨place, later, firstEnters, secondEnters, earlier⟩ := before
  exact Nat.ne_of_lt earlier (firstEnters.unique secondEnters)

/-- No field is listed twice. -/
theorem InOrderOfEntry.nodup
    (inOrder : InOrderOfEntry history keys) : keys.Nodup :=
  inOrder.ordered.imp EntersBefore.ne

/-- The order of the fields stays the order in which they have come in. -/
theorem InOrderOfEntry.keysAfter
    (inOrder : InOrderOfEntry history keys)
    (isPresent : ∀ key, key ∈ keys ↔ (lastValue history key).isSome = true)
    (change : FieldChange α) :
    InOrderOfEntry (history ++ [change]) (change.keysAfter keys) := by
  have stays {key : String} {place : Nat} (present : key ∈ keys)
      (lastEnters : LastEntersAt history key place) :
      LastEntersAt (history ++ [change]) key place :=
    lastEnters.append_singleton ((isPresent key).mp present) change
  have entered :
      ∀ key ∈ keys, ∃ place, LastEntersAt (history ++ [change]) key place := by
    intro key present
    obtain ⟨place, lastEnters⟩ := inOrder.entered key present
    exact ⟨place, stays present lastEnters⟩
  have ordered : keys.Pairwise (EntersBefore (history ++ [change])) := by
    refine inOrder.ordered.imp_of_mem
      fun firstPresent secondPresent before => ?_
    obtain ⟨place, later, firstEnters, secondEnters, earlier⟩ := before
    exact ⟨place, later, stays firstPresent firstEnters,
      stays secondPresent secondEnters, earlier⟩
  cases change with
  | remove key =>
      have fewer :=
        List.filter_sublist (p := fun other => decide (other ≠ key)) (l := keys)
      exact ⟨fun other present => entered other (fewer.subset present),
        ordered.sublist fewer⟩
  | set key value =>
      by_cases present : key ∈ keys
      · rw [FieldChange.keysAfter, if_pos present]
        exact ⟨entered, ordered⟩
      · have isSet : lastValue (history ++ [.set key value]) key =
            some value := by
          rw [lastValue_append_singleton, FieldChange.key, if_pos rfl]
          rfl
        have enters :
            LastEntersAt (history ++ [.set key value]) key history.length := by
          refine .of_absent ?_ (by rw [isSet]; rfl)
          rwa [isPresent, Option.not_isSome_iff_eq_none] at present
        rw [FieldChange.keysAfter, if_neg present]
        refine ⟨?_,
          List.pairwise_append.mpr ⟨ordered, List.pairwise_singleton _ _, ?_⟩⟩
        · intro other listed
          rcases List.mem_append.mp listed with before | isNew
          · exact entered other before
          · obtain rfl := List.mem_singleton.mp isNew
            exact ⟨_, enters⟩
        · intro other before new isNew
          obtain rfl := List.mem_singleton.mp isNew
          obtain ⟨place, lastEnters⟩ := inOrder.entered other before
          exact ⟨place, _, stays before lastEnters, enters,
            lastEnters.enters.lt_length⟩

/-- By induction on the history, fields are in the order they came in. -/
theorem inOrderOfEntry_keys_replay (history : List (FieldChange α)) :
    InOrderOfEntry history (replay history).keys := by
  induction history using List.reverseRecOn with
  | nil => exact ⟨nofun, List.Pairwise.nil⟩
  | append_singleton history change inductionHypothesis =>
      rw [replay_append_singleton, keys_change]
      exact inductionHypothesis.keysAfter (mem_keys_replay history) change

end Histories

end Fields

/-! ## Objects on a heap -/

/-- An operation on the cells of a heap. -/
inductive CellOperation
  | make (cell : Cell)
  | push (target item : Value)
  | change (target : Value) (change : FieldChange Value)

/-- Objects are the same by their handles. -/
theorem Value.same_object_iff (value : Value) (handle : Handle) :
    value.same (.object handle) = true ↔ value = .object handle := by
  cases value <;> simp [same]

/-- The change that an operation makes to an object, if it is made through a
value that is the object. -/
def CellOperation.changeOf?
    (object : Value) : CellOperation → Option (FieldChange Value)
  | change target made => if target.same object then some made else none
  | _ => none

namespace Heap

variable {heap : Heap} {handle : Handle} {fields : Fields Value}

/-- The heap after a change to the fields of an object, unless the target is
none. -/
def changeField?
    (heap : Heap)
    (target : Value) : FieldChange Value → Option Heap
  | .set key value => heap.setField? target key value
  | .remove key => (heap.removeField? target key).map (·.2)

/-- The heap after an operation. One whose target is of another kind changes
nothing. -/
def operate (heap : Heap) : CellOperation → Heap
  | .make cell => (heap.allocate cell).2
  | .push target item => (heap.pushItem? target item).getD heap
  | .change target change => (heap.changeField? target change).getD heap

theorem fields?_object_eq_some_iff :
    heap.fields? (.object handle) = some fields ↔
      heap.cell? handle = some (.object fields) := by
  constructor
  · intro isObject
    obtain ⟨_, isHandle, found⟩ := cell?_of_fields? isObject
    obtain rfl := Value.object.inj isHandle
    exact found
  · intro found
    rw [fields?, found]

/-- The value of a field that is removed is given back. -/
theorem removeField?_of_fields?
    (isObject : heap.fields? (.object handle) = some fields)
    (key : String) :
    heap.removeField? (.object handle) key =
      some ((fields.get? key).getD .undefined,
        heap.put handle (.object (fields.take key).2)) := by
  unfold removeField?
  rw [isObject]
  rfl

/-- An object can always be changed. -/
theorem changeField?_of_fields?
    (isObject : heap.fields? (.object handle) = some fields)
    (change : FieldChange Value) :
    heap.changeField? (.object handle) change =
      some (heap.put handle (.object (fields.change change))) := by
  cases change with
  | set key value =>
      unfold changeField? setField?
      rw [isObject]
      rfl
  | remove key =>
      rw [changeField?, removeField?_of_fields? isObject]
      rfl

/-- Nothing but an object can be changed. -/
theorem changeField?_of_fields?_eq_none
    {target : Value}
    (noObject : heap.fields? target = none)
    (change : FieldChange Value) : heap.changeField? target change = none := by
  cases change with
  | set key value =>
      unfold changeField? setField?
      rw [noObject]
      cases target <;> rfl
  | remove key =>
      unfold changeField? removeField?
      rw [noObject]
      cases target <;> rfl

/-- A change of one object leaves all other cells as they are. -/
theorem cell?_changeField?
    {target : Value}
    {after : Heap}
    {change : FieldChange Value}
    (different : target ≠ .object handle)
    (made : heap.changeField? target change = some after) :
    after.cell? handle = heap.cell? handle := by
  cases isTarget : heap.fields? target with
  | none =>
      rw [changeField?_of_fields?_eq_none isTarget] at made
      cases made
  | some fields =>
      obtain ⟨changed, rfl, _⟩ := cell?_of_fields? isTarget
      rw [changeField?_of_fields? isTarget] at made
      have otherHandle : changed ≠ handle :=
        fun same => different (congrArg Value.object same)
      rw [← Option.some.inj made, cell?_put_eq_ite, if_neg otherHandle]

/-- An item that is added to an array leaves all objects as they are. -/
theorem cell?_pushItem?
    {target item : Value}
    {after : Heap}
    (found : heap.cell? handle = some (.object fields))
    (made : heap.pushItem? target item = some after) :
    after.cell? handle = heap.cell? handle := by
  unfold pushItem? at made
  split at made
  next pushed items isArray =>
    obtain ⟨_, isHandle, foundArray⟩ := cell?_of_items? isArray
    obtain rfl := Value.array.inj isHandle
    have otherHandle : pushed ≠ handle := by
      rintro rfl
      rw [found] at foundArray
      cases foundArray
    rw [← Option.some.inj made, cell?_put_eq_ite, if_neg otherHandle]
  next => cases made

/-- An operation changes the fields of an object as it says, or not at all. -/
theorem fields?_operate
    (isObject : heap.fields? (.object handle) = some fields)
    (operation : CellOperation) :
    (heap.operate operation).fields? (.object handle) =
      some
        ((operation.changeOf? (.object handle)).elim fields fields.change) := by
  have found := fields?_object_eq_some_iff.mp isObject
  rw [fields?_object_eq_some_iff]
  cases operation with
  | make cell =>
      rw [operate, cell?_allocate, if_neg (Nat.ne_of_lt (index_lt_size found))]
      exact found
  | push target item =>
      rw [operate]
      cases made : heap.pushItem? target item with
      | none => exact found
      | some after => exact (cell?_pushItem? found made).trans found
  | change target change =>
      rw [operate, CellOperation.changeOf?]
      by_cases isTarget : target = .object handle
      · subst isTarget
        rw [changeField?_of_fields? isObject, Option.getD_some, cell?_put found,
          if_pos rfl, if_pos ((Value.same_object_iff _ _).mpr rfl)]
        rfl
      · rw [if_neg ((Value.same_object_iff _ _).not.mpr isTarget)]
        cases made : heap.changeField? target change with
        | none => exact found
        | some after => exact (cell?_changeField? isTarget made).trans found

/-- Whatever else is done, the fields of an object follow the changes that are
made to it. -/
theorem fields?_foldl_operate
    {before : List (FieldChange Value)}
    (isObject : heap.fields? (.object handle) = some (.replay before))
    (operations : List CellOperation) :
    (operations.foldl operate heap).fields? (.object handle) =
      some (.replay
        (before ++ operations.filterMap
          (CellOperation.changeOf? (.object handle)))) := by
  induction operations generalizing heap before with
  | nil => simpa using isObject
  | cons operation rest inductionHypothesis =>
      have one := fields?_operate isObject operation
      rw [List.foldl_cons, List.filterMap_cons]
      cases made : operation.changeOf? (.object handle) with
      | none =>
          rw [made] at one
          exact inductionHypothesis one
      | some change =>
          rw [made, Option.elim_some, ← Fields.replay_append_singleton] at one
          rw [inductionHypothesis one, List.append_assoc]
          rfl

/-- The fields of an object follow its history, that is, the changes made to it
by whoever holds its handle, whatever else happens on the heap in between. The
names are distinct, as many as there are fields, and in the order in which the
fields came in, each counted from the last time that it was not there before: an
overwritten field stays where it is, the others stay in order when one is
removed, and one that is added again comes last. A field has the value that it
was set to last, and none if it has been removed since or was never set; that is
also what the removal of the field gives. And whatever change is made next, it
is carried out on this object and leaves all other cells as they are. -/
theorem object_fields_follow_history
    (heap : Heap)
    (operations : List CellOperation) :
    let object := heap.newObject.1
    let after := operations.foldl operate heap.newObject.2
    let history := operations.filterMap (CellOperation.changeOf? object)
    ∃ fields, after.fields? object = some fields ∧
      fields.keys.Nodup ∧
      fields.keys.length = fields.size ∧
      (∀ key, key ∈ fields.keys ↔
        (Fields.lastValue history key).isSome = true) ∧
      Fields.InOrderOfEntry history fields.keys ∧
      (∀ key, fields.get? key = Fields.lastValue history key) ∧
      (∀ key, (fields.take key).1 = Fields.lastValue history key ∧
        ∃ later, after.removeField? object key =
          some ((Fields.lastValue history key).getD .undefined, later)) ∧
      ∀ change, ∃ later, after.changeField? object change = some later ∧
        later.fields? object = some (fields.change change) ∧
        (fields.change change).keys = change.keysAfter fields.keys ∧
        ∀ other, object ≠ .object other →
          later.cell? other = after.cell? other := by
  intro object after history
  have isNew : heap.newObject.2.fields? (.object ⟨heap.size⟩) =
      some (.replay []) := by
    refine fields?_object_eq_some_iff.mpr ?_
    exact (heap.cell?_allocate _ _).trans (if_pos rfl)
  have isObject : after.fields? (.object ⟨heap.size⟩) =
      some (.replay history) :=
    fields?_foldl_operate isNew operations
  have inOrder := Fields.inOrderOfEntry_keys_replay history
  have values := Fields.get?_replay history
  refine ⟨.replay history, isObject, inOrder.nodup, List.length_map _,
    Fields.mem_keys_replay history, inOrder, values, fun key =>
      ⟨values key, ?_⟩, fun change => ?_⟩
  · rw [← values]
    exact ⟨_, removeField?_of_fields? isObject key⟩
  · have found := fields?_object_eq_some_iff.mp isObject
    have made := changeField?_of_fields? isObject change
    refine ⟨_, made, fields?_object_eq_some_iff.mpr ?_,
      Fields.keys_change _ change,
      fun other different => cell?_changeField? different made⟩
    rw [cell?_put found, if_pos rfl]

/-- A heap with an array in it. -/
def oneArray : Heap := ⟨#[.array []]⟩

/-- An object with two fields, of which the first is removed and added again
after the second one has been overwritten, while the array grows. -/
def addedAgain : List CellOperation :=
  [.change (.object ⟨1⟩) (.set "b" .null),
    .change (.object ⟨1⟩) (.set "a" .null), .push (.array ⟨0⟩) (.object ⟨1⟩),
    .change (.object ⟨1⟩) (.remove "b"), .change (.object ⟨1⟩)
      (.set "a" .undefined), .change (.object ⟨1⟩) (.set "b" (.bool true))]

/-- Each field has its last value, and to remove one leaves the array alone. -/
theorem object_fields_follow_history_addedAgain :
    let after := addedAgain.foldl operate oneArray.newObject.2
    ∃ fields, after.fields? (.object ⟨1⟩) = some fields ∧
      fields.get? "a" = some .undefined ∧
      "b" ∈ fields.keys ∧ "c" ∉ fields.keys ∧
      (∃ later, after.removeField? (.object ⟨1⟩) "b" =
        some (.bool true, later)) ∧
      ∃ later, after.changeField? (.object ⟨1⟩) (.remove "b") = some later ∧
        later.cell? ⟨0⟩ = after.cell? ⟨0⟩ := by
  intro after
  obtain ⟨fields, isObject, _, _, isPresent, _, values, removals, changes⟩ :=
    object_fields_follow_history oneArray addedAgain
  obtain ⟨later, made, _, _, others⟩ := changes (.remove "b")
  exact ⟨fields, isObject, values "a", (isPresent "b").mpr rfl,
    (isPresent "c").not.mpr (by decide), (removals "b").2, later, made,
    others ⟨0⟩ nofun⟩

end Heap
end CommonJs
