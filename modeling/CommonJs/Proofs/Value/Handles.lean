import CommonJs.Script.Instr

/-!
# Values are cells of the heap

Scripts make values only by adding cells to the heap, by looking into cells
and by reading names. So where every cell and every name holds values whose
handles are cells of the heap, so does everything that an expression has as
its value, and the heap stays closed. A handle that is not yet a cell is held
by no value.
-/

namespace CommonJs

/-- The handle of a value that is a cell. -/
def Value.handle? : Value → Option Handle
  | .array handle => some handle
  | .object handle => some handle
  | .host handle => some handle
  | _ => none

/-- The values in a cell. -/
def Cell.values : Cell → List Value
  | .array items => items
  | .object fields => fields.entries.map (·.2)
  | .host _ => []

namespace Fields

variable {fields : Fields Value} {key : String} {value other : Value}

/-- No other value comes in with a field that is set. -/
theorem mem_of_mem_set
    (present : other ∈ (fields.set key value).entries.map (·.2)) :
    other = value ∨ other ∈ fields.entries.map (·.2) := by
  unfold set at present
  split at present
  · simp only [replaceEntry, List.map_map, List.mem_map, Function.comp_apply]
      at present
    obtain ⟨entry, listed, rfl⟩ := present
    split
    · exact Or.inl rfl
    · exact Or.inr (List.mem_map_of_mem listed)
  · rw [List.map_append, List.mem_append, List.map_cons, List.map_nil,
        List.mem_singleton]
      at present
    exact present.symm

theorem mem_of_get? (found : fields.get? key = some value) :
    value ∈ fields.entries.map (·.2) := by
  obtain ⟨entries⟩ := fields
  induction entries with
  | nil => cases found
  | cons entry rest inductionHypothesis =>
      obtain ⟨first, held⟩ := entry
      simp only [get?, List.lookup_cons] at found
      split at found
      · cases found
        exact List.mem_cons_self
      · exact List.mem_cons_of_mem _ (inductionHypothesis found)

/-- No value comes in with a field that is removed. -/
theorem mem_of_mem_remove
    (present : other ∈ (fields.remove key).entries.map (·.2)) :
    other ∈ fields.entries.map (·.2) := by
  obtain ⟨entry, listed, rfl⟩ := List.mem_map.mp present
  exact List.mem_map_of_mem (List.mem_filter.mp listed).1

end Fields

namespace Heap

/-- A value is no cell, or it is a cell of the heap. -/
def Knows (heap : Heap) (value : Value) : Prop :=
  ∀ handle, value.handle? = some handle → handle.index < heap.size

/-- The cells of a heap hold nothing but cells of it. -/
def Closed (heap : Heap) : Prop :=
  ∀ handle cell, heap.cell? handle = some cell → ∀ value ∈ cell.values,
    heap.Knows value

/-- A closed heap that has grown from another one, and values that it knows. -/
structure Yields
    (before : Heap)
    (values : List Value)
    (after : Heap) : Prop where
  /-- No cell is given up. -/
  size_le : before.size ≤ after.size
  /-- What lies in the cells is known. -/
  closed : after.Closed
  /-- So are the values. -/
  known : ∀ value ∈ values, after.Knows value

section Basic

variable {heap after later : Heap} {value : Value} {values : List Value}

/-- What is no cell is known everywhere. -/
theorem knows_of_handle?_eq_none
    (noCell : value.handle? = none) : heap.Knows value := by
  intro handle isHandle
  rw [noCell] at isHandle
  cases isHandle

/-- A heap that has grown knows what it knew. -/
theorem Knows.mono
    (knows : heap.Knows value)
    (size_le : heap.size ≤ after.size) :
    after.Knows value :=
  fun handle isHandle => Nat.lt_of_lt_of_le (knows handle isHandle) size_le

theorem Knows.getD
    {found : Option Value}
    (known : ∀ value, found = some value → heap.Knows value) :
    heap.Knows (found.getD .undefined) := by
  cases found with
  | none => exact knows_of_handle?_eq_none rfl
  | some value => exact known value rfl

/-- A new handle is none of the handles that are known. -/
theorem Knows.handle?_ne
    (knows : heap.Knows value)
    {handle : Handle}
    (fresh : heap.cell? handle = none) : value.handle? ≠ some handle := by
  intro isHandle
  have known := knows handle isHandle
  simp only [cell?, Array.getElem?_eq_none_iff] at fresh
  exact absurd known (Nat.not_lt.mpr fresh)

theorem Yields.knows (yields : heap.Yields [value] after) : after.Knows value :=
  yields.known value List.mem_cons_self

/-- A value that is known needs no new cell. -/
theorem Yields.of_knows (closed : heap.Closed) (knows : heap.Knows value) :
    heap.Yields [value] heap :=
  ⟨Nat.le_refl _, closed, fun _ listed => List.mem_singleton.mp listed ▸ knows⟩

/-- What is no cell can always be had. -/
theorem Yields.plain (closed : heap.Closed) (noCell : value.handle? = none) :
    heap.Yields [value] heap :=
  .of_knows closed (knows_of_handle?_eq_none noCell)

/-- A heap may grow more than once. -/
theorem Yields.trans
    {others : List Value}
    (first : heap.Yields values after)
    (second : after.Yields others later) : heap.Yields others later :=
  ⟨Nat.le_trans first.size_le second.size_le, second.closed, second.known⟩

/-! ## New and changed cells -/

/-- A new cell is one more. -/
theorem size_allocate (heap : Heap) (cell : Cell) :
    (heap.allocate cell).2.size = heap.size + 1 :=
  Array.size_push cell

/-- A new cell comes at the end and changes no other. -/
theorem cell?_allocate (heap : Heap) (cell : Cell) (handle : Handle) :
    (heap.allocate cell).2.cell? handle =
      if handle.index = heap.size then some cell else heap.cell? handle :=
  Array.getElem?_push

/-- A cell may be made of values that are known. -/
theorem yields_allocate
    (closed : heap.Closed)
    {cell : Cell}
    (known : ∀ value ∈ cell.values, heap.Knows value)
    (isCell : value.handle? = some (heap.allocate cell).1) :
    heap.Yields [value] (heap.allocate cell).2 where
  size_le := by
    rw [size_allocate]
    exact Nat.le_succ _
  closed := by
    intro handle other found value listed
    have grown : heap.size ≤ (heap.allocate cell).2.size := by
      rw [size_allocate]
      exact Nat.le_succ _
    rw [cell?_allocate] at found
    split at found
    · obtain rfl := Option.some.inj found
      exact (known value listed).mono grown
    · exact (closed handle other found value listed).mono grown
  known := by
    intro other listed handle isHandle
    obtain rfl := List.mem_singleton.mp listed
    obtain rfl := Option.some.inj (isCell.symm.trans isHandle)
    rw [size_allocate]
    exact Nat.lt_succ_self _

theorem yields_newObject (closed : heap.Closed) :
    heap.Yields [heap.newObject.1] heap.newObject.2 :=
  yields_allocate closed nofun rfl

/-- An array may be made of values that are known. -/
theorem yields_newArray
    (closed : heap.Closed)
    (known : ∀ value ∈ values, heap.Knows value) :
    heap.Yields [(heap.newArray values).1] (heap.newArray values).2 :=
  yields_allocate closed known rfl

theorem yields_newHost (closed : heap.Closed) (content : HostContent) :
    heap.Yields [(heap.newHost content).1] (heap.newHost content).2 :=
  yields_allocate closed nofun rfl

@[simp] theorem size_put (heap : Heap) (handle : Handle) (cell : Cell) :
    (heap.put handle cell).size = heap.size :=
  Array.size_setIfInBounds

/-- A cell that is put into the place of another one is seen under its handle
only. -/
theorem cell?_put_eq_ite
    (heap : Heap)
    (handle : Handle)
    (cell : Cell)
    (other : Handle) :
    (heap.put handle cell).cell? other =
      if handle = other then
        if handle.index < heap.size then some cell else none
      else heap.cell? other := by
  have sameIndex : handle.index = other.index ↔ handle = other :=
    ⟨fun same => Handle.mk.injEq .. ▸ same, congrArg Handle.index⟩
  simp only [← sameIndex]
  exact Array.getElem?_setIfInBounds

/-- What lies in a cell may be exchanged for known values. -/
theorem Closed.put
    (closed : heap.Closed)
    (handle : Handle)
    {cell : Cell}
    (known : ∀ value ∈ cell.values, heap.Knows value) :
    (heap.put handle cell).Closed := by
  have same : heap.size ≤ (heap.put handle cell).size := by simp
  intro other found isFound value listed
  rw [cell?_put_eq_ite] at isFound
  split at isFound
  · split at isFound
    · obtain rfl := Option.some.inj isFound
      exact (known value listed).mono same
    · cases isFound
  · exact (closed other found isFound value listed).mono same

/-! ## Looking into cells -/

theorem cell?_of_items? (isArray : heap.items? value = some values) :
    ∃ handle, value = .array handle ∧
      heap.cell? handle = some (.array values) := by
  unfold items? at isArray
  split at isArray
  next handle =>
    split at isArray
    next items found =>
      obtain rfl := Option.some.inj isArray
      exact ⟨handle, rfl, found⟩
    next => cases isArray
  next => cases isArray

theorem cell?_of_fields?
    {fields : Fields Value}
    (isObject : heap.fields? value = some fields) :
    ∃ handle, value = .object handle ∧
      heap.cell? handle = some (.object fields) := by
  unfold fields? at isObject
  split at isObject
  next handle =>
    split at isObject
    next fields found =>
      obtain rfl := Option.some.inj isObject
      exact ⟨handle, rfl, found⟩
    next => cases isObject
  next => cases isObject

/-- The items of an array are known. -/
theorem Closed.knows_items
    (closed : heap.Closed)
    (isArray : heap.items? value = some values) :
    ∀ item ∈ values, heap.Knows item := by
  obtain ⟨handle, _, found⟩ := cell?_of_items? isArray
  exact closed handle _ found

/-- So are the fields of an object. -/
theorem Closed.knows_fields
    (closed : heap.Closed)
    {fields : Fields Value}
    (isObject : heap.fields? value = some fields) :
    ∀ field ∈ fields.entries.map (·.2), heap.Knows field := by
  obtain ⟨handle, _, found⟩ := cell?_of_fields? isObject
  exact closed handle _ found

/-- To look for a field gives a known value, found or not. -/
theorem Closed.knows_getField
    (closed : heap.Closed)
    (target : Value)
    (key : String) :
    heap.Knows (heap.getField target key) := by
  unfold getField
  split
  next fields isObject =>
    exact .getD fun value found =>
      closed.knows_fields isObject value (Fields.mem_of_get? found)
  next => exact knows_of_handle?_eq_none rfl

/-! ## Changes of cells -/

/-- A field may be set to a known value. -/
theorem Closed.setField?
    (closed : heap.Closed)
    {target : Value}
    {key : String}
    (knows : heap.Knows value)
    (changed : heap.setField? target key value = some after) :
    heap.size ≤ after.size ∧ after.Closed := by
  unfold Heap.setField? at changed
  split at changed
  next handle fields isObject =>
    cases changed
    refine ⟨by simp, closed.put handle fun other listed => ?_⟩
    rcases Fields.mem_of_mem_set listed with rfl | listed
    · exact knows
    · exact closed.knows_fields isObject other listed
  next => cases changed

/-- A known value may be added to an array. -/
theorem Closed.pushItem?
    (closed : heap.Closed)
    {target : Value}
    (knows : heap.Knows value)
    (changed : heap.pushItem? target value = some after) :
    heap.size ≤ after.size ∧ after.Closed := by
  unfold Heap.pushItem? at changed
  split at changed
  next handle items isArray =>
    cases changed
    refine ⟨by simp, closed.put handle fun other listed => ?_⟩
    rcases List.mem_append.mp listed with listed | pushed
    · exact closed.knows_items isArray other listed
    · exact List.mem_singleton.mp pushed ▸ knows
  next => cases changed

/-- The value of a field that is removed is still known. -/
theorem Closed.removeField?
    (closed : heap.Closed)
    {target : Value}
    {key : String}
    (changed : heap.removeField? target key = some (value, after)) :
    heap.Yields [value] after := by
  unfold Heap.removeField? at changed
  split at changed
  next handle fields isObject =>
    cases changed
    refine ⟨by
      simp, closed.put handle fun other listed => ?_, fun other listed => ?_⟩
    · exact closed.knows_fields isObject other (Fields.mem_of_mem_remove listed)
    · obtain rfl := List.mem_singleton.mp listed
      refine Knows.mono (.getD fun value found => ?_)
        (Nat.le_of_eq (size_put _ _ _).symm)
      exact closed.knows_fields isObject value (Fields.mem_of_get? found)
  next => cases changed

/-- To wrap a value makes cells of cells, as often as it is done. -/
theorem yields_wrap
    (closed : heap.Closed)
    (wrapping : Wrapping)
    (knows : heap.Knows value)
    (count : Nat) :
    heap.Yields [(heap.wrap wrapping value count).1]
      (heap.wrap wrapping value count).2 := by
  induction count generalizing heap value with
  | zero => exact .of_knows closed knows
  | succ count inductionHypothesis =>
      cases wrapping with
      | array =>
          have wrapped :=
            yields_newArray closed (List.forall_mem_singleton.mpr knows)
          exact wrapped.trans (inductionHypothesis wrapped.closed wrapped.knows)
      | object =>
          have wrapped : heap.Yields
              [.object (heap.allocate (.object ⟨[("k", value)]⟩)).1]
              (heap.allocate (.object ⟨[("k", value)]⟩)).2 :=
            yields_allocate closed (List.forall_mem_singleton.mpr knows) rfl
          exact wrapped.trans (inductionHypothesis wrapped.closed wrapped.knows)

end Basic

/-! ## JSON -/

mutual

/-- By induction on the JSON, its value is made of cells that are known. -/
theorem yields_ofJson
    (heap : Heap)
    (closed : heap.Closed)
    (json : Json) :
    heap.Yields [(heap.ofJson json).1] (heap.ofJson json).2 := by
  cases json with
  | array items =>
      have made := yields_ofItems heap closed items
      exact made.trans (yields_newArray made.closed made.known)
  | object members =>
      have made := yields_ofMembers heap closed .empty nofun members
      exact made.trans (yields_allocate made.closed made.known rfl)
  | _ => exact .plain closed rfl

theorem yields_ofItems
    (heap : Heap)
    (closed : heap.Closed)
    (items : List Json) :
    heap.Yields (heap.ofItems items).1 (heap.ofItems items).2 := by
  cases items with
  | nil => exact ⟨Nat.le_refl _, closed, nofun⟩
  | cons item rest =>
      have first := yields_ofJson heap closed item
      have others := yields_ofItems (heap.ofJson item).2 first.closed rest
      exact
        { size_le := Nat.le_trans first.size_le others.size_le
          closed := others.closed
          known := List.forall_mem_cons.mpr
            ⟨first.knows.mono others.size_le, others.known⟩ }

theorem yields_ofMembers
    (heap : Heap)
    (closed : heap.Closed)
    (fields : Fields Value)
    (known : ∀ value ∈ fields.entries.map (·.2), heap.Knows value)
    (members : List (String × Json)) :
    heap.Yields ((heap.ofMembers fields members).1.entries.map (·.2))
      (heap.ofMembers fields members).2 := by
  cases members with
  | nil => exact ⟨Nat.le_refl _, closed, known⟩
  | cons entry rest =>
      obtain ⟨key, member⟩ := entry
      have first := yields_ofJson heap closed member
      refine first.trans
        (yields_ofMembers (heap.ofJson member).2 first.closed _ ?_ rest)
      intro value listed
      rcases Fields.mem_of_mem_set listed with rfl | listed
      · exact first.knows
      · exact (known value listed).mono first.size_le

end

end Heap

/-! ## Expressions -/

/-- The names that an expression may use have values that a heap knows. -/
structure Bindings.Known (bindings : Bindings) (heap : Heap) : Prop where
  /-- The variables are known. -/
  store : ∀ (name : String) (value : Value),
    bindings.store[name]? = some value → heap.Knows value
  /-- The globals are known. -/
  globals : ∀ (name : String) (value : Value),
    bindings.globals[name]? = some value → heap.Knows value
  /-- So is what the name `exports` stands for. -/
  exports : ∀ scope, bindings.scope = some scope → heap.Knows scope.exports
  /-- So are the exports of the module. -/
  moduleExports : ∀ scope, bindings.scope = some scope →
    heap.Knows scope.moduleExports

/-- Names keep their values when the heap grows. -/
theorem Bindings.Known.mono
    {bindings : Bindings}
    {heap after : Heap}
    (known : bindings.Known heap)
    (size_le : heap.size ≤ after.size) : bindings.Known after where
  store name value found := (known.store name value found).mono size_le
  globals name value found := (known.globals name value found).mono size_le
  exports scope isScope := (known.exports scope isScope).mono size_le
  moduleExports scope isScope :=
    (known.moduleExports scope isScope).mono size_le

namespace Expr

open Heap (Yields)

/-- The expression only asks something of a target: its value is no cell. -/
inductive Asks : Expr → Expr → Prop
  | hasField (target : Expr) (key : String) : Asks (.hasField target key) target
  | length (target : Expr) : Asks (.length target) target
  | isEmpty (target : Expr) : Asks (.isEmpty target) target
  | typeName (target : Expr) : Asks (.typeName target) target
  | text (target : Expr) : Asks (.text target) target
  | handleText (target : Expr) : Asks (.handleText target) target

/-- What is asked of a target is no cell, and leaves the heap as the target
does. -/
theorem Asks.eval_plain
    {expr target : Expr}
    (asks : expr.Asks target)
    (bindings : Bindings)
    (heap : Heap) :
    (expr.eval bindings heap).1.handle? = none ∧
      (expr.eval bindings heap).2 = (target.eval bindings heap).2 := by
  cases asks
  all_goals
    rw [eval]
    dsimp only
  -- A type name and a text are there for every target, the rest for some only.
  case typeName => exact ⟨rfl, rfl⟩
  case text => exact ⟨rfl, rfl⟩
  all_goals
    split
    all_goals exact ⟨rfl, rfl⟩

/-- An expression that looks at a target makes no cell besides those that the
target makes. -/
theorem Asks.yields
    {expr target : Expr}
    (asks : expr.Asks target)
    {bindings : Bindings}
    {heap : Heap}
    (first : heap.Yields [(target.eval bindings heap).1]
      (target.eval bindings heap).2) :
    heap.Yields [(expr.eval bindings heap).1] (expr.eval bindings heap).2 := by
  obtain ⟨noCell, unchanged⟩ := asks.eval_plain bindings heap
  rw [unchanged]
  exact first.trans (.plain first.closed noCell)

/-- What a body sees of its module is known if it is known wherever there is a
module. -/
theorem yields_ofScope
    {bindings : Bindings}
    {heap : Heap}
    (closed : heap.Closed)
    {seen : Scope → Value}
    (known : ∀ scope, bindings.scope = some scope → heap.Knows (seen scope)) :
    heap.Yields [(bindings.scope.map seen).getD .undefined] heap := by
  refine .of_knows closed (.getD fun value found => ?_)
  obtain ⟨scope, isScope, rfl⟩ := Option.map_eq_some_iff.mp found
  exact known scope isScope

mutual

/-- By induction on the expression, its value is made of known cells. -/
theorem yields_eval
    (bindings : Bindings)
    (heap : Heap)
    (closed : heap.Closed)
    (known : bindings.Known heap)
    (expr : Expr) :
    heap.Yields [(expr.eval bindings heap).1] (expr.eval bindings heap).2 := by
  cases expr with
  | json value => exact Heap.yields_ofJson heap closed value
  | hostText word => exact Heap.yields_newHost closed _
  | hostNumber => exact Heap.yields_newHost closed _
  | named name => exact .of_knows closed (.getD (known.store name))
  | newObject => exact Heap.yields_newObject closed
  | object fields =>
      have made :=
        yields_evalFields bindings heap closed known .empty nofun fields
      exact made.trans (Heap.yields_allocate made.closed made.known rfl)
  | array items =>
      have made := yields_evalItems bindings heap closed known items
      exact made.trans (Heap.yields_newArray made.closed made.known)
  | nested wrapping count inner =>
      have first := yields_eval bindings heap closed known inner
      exact first.trans
        (Heap.yields_wrap first.closed wrapping first.knows count)
  | field target key =>
      have first := yields_eval bindings heap closed known target
      exact first.trans
        (.of_knows first.closed (first.closed.knows_getField _ key))
  | item target index =>
      have first := yields_eval bindings heap closed known target
      refine first.trans ?_
      rw [eval]
      dsimp only
      split
      next items isArray =>
        refine .of_knows first.closed (.getD fun value found => ?_)
        exact first.closed.knows_items isArray value
          (List.mem_of_getElem? found)
      next => exact .plain first.closed rfl
  | hasField target key =>
      exact (Asks.hasField target key).yields
        (yields_eval bindings heap closed known target)
  | keys target =>
      have first := yields_eval bindings heap closed known target
      refine first.trans ?_
      rw [eval]
      dsimp only
      split
      next fields isObject =>
        refine Heap.yields_newArray first.closed fun value listed => ?_
        obtain ⟨key, _, rfl⟩ := List.mem_map.mp listed
        exact Heap.knows_of_handle?_eq_none rfl
      next => exact .plain first.closed rfl
  | length target =>
      exact (Asks.length target).yields
        (yields_eval bindings heap closed known target)
  | isEmpty target =>
      exact (Asks.isEmpty target).yields
        (yields_eval bindings heap closed known target)
  | same one other =>
      have first := yields_eval bindings heap closed known one
      have second :=
        yields_eval bindings _ first.closed (known.mono first.size_le) other
      exact first.trans (second.trans (.plain second.closed rfl))
  | typeName target =>
      exact (Asks.typeName target).yields
        (yields_eval bindings heap closed known target)
  | text target =>
      exact (Asks.text target).yields
        (yields_eval bindings heap closed known target)
  | handleText target =>
      exact (Asks.handleText target).yields
        (yields_eval bindings heap closed known target)
  | roundTrip target =>
      have first := yields_eval bindings heap closed known target
      exact first.trans (Heap.yields_ofJson _ first.closed _)
  | exports => exact yields_ofScope closed known.exports
  | moduleExports => exact yields_ofScope closed known.moduleExports
  | filename =>
      exact yields_ofScope closed fun _ _ => Heap.knows_of_handle?_eq_none rfl
  | dirname =>
      exact yields_ofScope closed fun _ _ => Heap.knows_of_handle?_eq_none rfl
  | loaded =>
      exact yields_ofScope closed fun _ _ => Heap.knows_of_handle?_eq_none rfl
  | global name => exact .of_knows closed (.getD (known.globals name))
  | _ => exact .plain closed rfl

theorem yields_evalItems
    (bindings : Bindings)
    (heap : Heap)
    (closed : heap.Closed)
    (known : bindings.Known heap)
    (items : List Expr) :
    heap.Yields (evalItems bindings heap items).1
      (evalItems bindings heap items).2 := by
  cases items with
  | nil => exact ⟨Nat.le_refl _, closed, nofun⟩
  | cons item rest =>
      have first := yields_eval bindings heap closed known item
      have others :=
        yields_evalItems bindings _ first.closed (known.mono first.size_le) rest
      exact
        { size_le := Nat.le_trans first.size_le others.size_le
          closed := others.closed
          known := List.forall_mem_cons.mpr
            ⟨first.knows.mono others.size_le, others.known⟩ }

theorem yields_evalFields
    (bindings : Bindings)
    (heap : Heap)
    (closed : heap.Closed)
    (known : bindings.Known heap)
    (fields : Fields Value)
    (fieldsKnown : ∀ value ∈ fields.entries.map (·.2), heap.Knows value)
    (members : List (String × Expr)) :
    heap.Yields ((evalFields bindings heap fields members).1.entries.map (·.2))
      (evalFields bindings heap fields members).2 := by
  cases members with
  | nil => exact ⟨Nat.le_refl _, closed, fieldsKnown⟩
  | cons entry rest =>
      obtain ⟨key, member⟩ := entry
      have first := yields_eval bindings heap closed known member
      refine first.trans (yields_evalFields bindings _ first.closed
        (known.mono first.size_le) _ ?_ rest)
      intro value listed
      rcases Fields.mem_of_mem_set listed with rfl | listed
      · exact first.knows
      · exact (fieldsKnown value listed).mono first.size_le

end

end Expr

/-! ## Changes -/

namespace Workspace

/-- The heap of a workspace is closed, and it knows the values of all names. -/
structure Sound
    (workspace : Workspace)
    (globals : Std.TreeMap String Value)
    (scope : Option Scope) : Prop where
  /-- What lies in the cells is known. -/
  closed : workspace.heap.Closed
  /-- So is what the names stand for. -/
  known : Bindings.Known ⟨workspace.store, globals, scope⟩ workspace.heap

namespace Sound

variable {workspace : Workspace} {globals : Std.TreeMap String Value}
  {scope : Option Scope}

/-- An expression yields its value in a workspace, too. -/
theorem yields_eval
    (sound : workspace.Sound globals scope)
    (expr : Expr) :
    workspace.heap.Yields [(workspace.eval globals scope expr).1]
      (workspace.eval globals scope expr).2.heap :=
  Expr.yields_eval _ _ sound.closed sound.known expr

/-- A workspace stays sound when its heap becomes one that yields something. -/
theorem of_yields
    (sound : workspace.Sound globals scope)
    {values : List Value}
    {heap : Heap}
    (yields : workspace.heap.Yields values heap) :
    Sound { workspace with heap } globals scope where
  closed := yields.closed
  known := sound.known.mono yields.size_le

/-- To evaluate an expression leaves the names alone. -/
theorem eval
    (sound : workspace.Sound globals scope)
    (expr : Expr) : (workspace.eval globals scope expr).2.Sound globals scope :=
  sound.of_yields (sound.yields_eval expr)

/-- A name may be given to a known value. -/
theorem assign
    (sound : workspace.Sound globals scope)
    {value : Value}
    (knows : workspace.heap.Knows value)
    (name : String) : (workspace.assign name value).Sound globals scope where
  closed := sound.closed
  known :=
    { sound.known with
      store := fun other held found => by
        rw [Workspace.assign, Std.TreeMap.getElem?_insert] at found
        split at found
        · exact Option.some.inj found ▸ knows
        · exact sound.known.store other held found }

end Sound
end Workspace

/-- A change makes the heap no smaller, and all values stay known. -/
theorem Change.sound_run
    {workspace : Workspace}
    {globals : Std.TreeMap String Value}
    {scope : Option Scope}
    (sound : workspace.Sound globals scope)
    (change : Change) :
    workspace.heap.size ≤ (change.run globals scope workspace).2.heap.size ∧
      (change.run globals scope workspace).2.Sound globals scope := by
  cases change with
  | assign name value =>
      have first := sound.yields_eval value
      exact ⟨first.size_le, (sound.eval value).assign first.knows name⟩
  | set target key value =>
      have first := sound.yields_eval target
      have between := sound.eval target
      unfold run
      dsimp only
      split
      next => exact ⟨first.size_le, between⟩
      next =>
        have second := between.yields_eval value
        have whole := first.trans second
        split
        next heap changed =>
          obtain ⟨size_le, closed⟩ :=
            second.closed.setField? second.knows changed
          exact ⟨Nat.le_trans whole.size_le size_le, closed,
            (between.eval value).known.mono size_le⟩
        next => exact ⟨whole.size_le, between.eval value⟩
  | push target item =>
      have first := sound.yields_eval target
      have between := sound.eval target
      unfold run
      dsimp only
      split
      next => exact ⟨first.size_le, between⟩
      next =>
        have second := between.yields_eval item
        have whole := first.trans second
        split
        next heap changed =>
          obtain ⟨size_le, closed⟩ :=
            second.closed.pushItem? second.knows changed
          exact ⟨Nat.le_trans whole.size_le size_le, closed,
            (between.eval item).known.mono size_le⟩
        next => exact ⟨whole.size_le, between.eval item⟩
  | remove target key =>
      have first := sound.yields_eval target
      have between := sound.eval target
      unfold run
      dsimp only
      split
      next removed heap changed =>
        have second := first.closed.removeField? changed
        exact ⟨Nat.le_trans first.size_le second.size_le,
          (between.of_yields second).assign second.knows _⟩
      next => exact ⟨first.size_le, between⟩

end CommonJs
