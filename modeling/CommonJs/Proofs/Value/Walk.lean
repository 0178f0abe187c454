import CommonJs.Proofs.Value.Rendering

/-!
# Walks through a value

A walk goes through the cells of a value one step at a time. It keeps a list of
the cells that it is in: it opens a cell by adding it to the list, goes through
the values in the cell one after the other and takes the cell off the list
again; a cell that is on the list already is cut. No bound is known to the
walk. It ends all the same, as a cell is opened only where it is not open, and
what it has made then is what the bounded recursion makes.
-/

namespace CommonJs

/-! ## The walk and its moments -/

/-- A cell that a walk is in, what has been made of the first values in it,
and the values in it that are still to come. -/
structure Enclosure (β : Type) where
  /-- The cell. -/
  handle : Handle
  /-- What lies in it. -/
  cell : Cell
  /-- What its first values have become. -/
  finished : List β
  /-- The values that are still to come. -/
  pending : List Value

/-- A walk is about to enter a value, or it is between two values of the
innermost cell, or it leaves a value with what has been made of it. -/
inductive Stage (β : Type)
  | enter (value : Value)
  | between
  | leave (result : β)

/-- A walk at one moment: the cells that it is in, the innermost one first,
and the list of cells that it keeps. -/
structure Walk (β : Type) where
  /-- What is done next. -/
  stage : Stage β
  /-- The cells around it, innermost first. -/
  enclosures : List (Enclosure β)
  /-- The cells that are taken to be around it. -/
  opened : List Handle

namespace Walk

/-- A walk that has not begun. -/
def start (value : Value) : Walk β :=
  ⟨.enter value, [], []⟩

/-- A walk that has ended. -/
def finished (result : β) : Walk β :=
  ⟨.leave result, [], []⟩

end Walk

/-- The positions taken on the way into the innermost cell and in it. -/
def positionIn (enclosures : List (Enclosure β)) : List Nat :=
  (enclosures.map fun enclosure => enclosure.finished.length).reverse

namespace Rendering

variable {β : Type} {rendering : Rendering β} {heap : Heap}

/-- One step of a walk. The list of cells grows where a cell is entered and
shrinks where it is left. -/
def step (rendering : Rendering β) (heap : Heap) : Walk β → Option (Walk β)
  | ⟨.enter value, enclosures, opened⟩ =>
      match heap.meet opened value with
      | .leaf => some ⟨.leave (rendering.leaf value), enclosures, opened⟩
      | .cut => some ⟨.leave rendering.cut, enclosures, opened⟩
      | .whole handle cell =>
          some ⟨.between, ⟨handle, cell, [], cell.values⟩ :: enclosures,
            handle :: opened⟩
  | ⟨.between, ⟨handle, cell, finished, item :: pending⟩ :: enclosures,
      opened⟩ =>
      some
        ⟨.enter item, ⟨handle, cell, finished, pending⟩ :: enclosures, opened⟩
  | ⟨.between, ⟨_, cell, finished, []⟩ :: enclosures, opened⟩ =>
      some ⟨.leave (rendering.whole cell finished), enclosures, opened.tail⟩
  | ⟨.leave result, ⟨handle, cell, finished, pending⟩ :: enclosures, opened⟩ =>
      some ⟨.between,
        ⟨handle, cell, finished ++ [result], pending⟩ :: enclosures, opened⟩
  | _ => none

/-- Any number of steps. -/
def Steps (rendering : Rendering β) (heap : Heap) : Walk β → Walk β → Prop :=
  Relation.ReflTransGen fun walk next => rendering.step heap walk = some next

/-! ## The list of cells -/

/-- The cells that a walk is in lie inside one another, and what stands where
the walk is lies inside all of them. -/
inductive Nested
    (heap : Heap)
    (root : Value) : List (Enclosure β) → Value → Prop
  | root : Nested heap root [] root
  | inside {holder item : Value} {enclosure : Enclosure β}
      {enclosures : List (Enclosure β)} :
      Nested heap root enclosures holder →
      holder.container? = some enclosure.handle →
      heap.inside? holder = some enclosure.cell →
      enclosure.cell.values.drop enclosure.finished.length =
        item :: enclosure.pending →
      Nested heap root (enclosure :: enclosures) item

/-- Where a walk is: at a value inside all of the cells, or in the innermost
cell before the values that are still to come. -/
def Stands (heap : Heap) (root : Value) : Stage β → List (Enclosure β) → Prop
  | .enter value, enclosures => Nested heap root enclosures value
  | .leave _, enclosures => ∃ value, Nested heap root enclosures value
  | .between, enclosure :: enclosures =>
      ∃ holder, Nested heap root enclosures holder ∧
        holder.container? = some enclosure.handle ∧
        heap.inside? holder = some enclosure.cell ∧
        enclosure.cell.values.drop enclosure.finished.length = enclosure.pending
  | .between, [] => False

/-- The list of a walk has the cells that the walk is in, each once. -/
structure Tidy (heap : Heap) (root : Value) (walk : Walk β) : Prop where
  /-- The walk is at a place of the value. -/
  stands : Stands heap root walk.stage walk.enclosures
  /-- The list has the cells around that place. -/
  opened_eq : walk.opened = walk.enclosures.map Enclosure.handle
  /-- No cell is listed twice. -/
  distinct : walk.opened.Nodup

theorem tidy_start (root : Value) : Tidy (β := β) heap root (.start root) :=
  ⟨.root, rfl, List.nodup_nil⟩

/-- A step enters a cell and lists it, or leaves the last one listed. -/
theorem Tidy.step
    {root : Value}
    {walk next : Walk β}
    (tidy : Tidy heap root walk)
    (steps : rendering.step heap walk = some next) : Tidy heap root next := by
  obtain ⟨stands, opened_eq, distinct⟩ := tidy
  unfold Rendering.step at steps
  split at steps
  next value enclosures opened =>
    split at steps
    next =>
      obtain rfl := Option.some.inj steps
      exact ⟨⟨value, stands⟩, opened_eq, distinct⟩
    next =>
      obtain rfl := Option.some.inj steps
      exact ⟨⟨value, stands⟩, opened_eq, distinct⟩
    next handle cell meets =>
      obtain rfl := Option.some.inj steps
      obtain ⟨isContainer, found, notOpen⟩ := Heap.meet_eq_whole_iff.mp meets
      exact ⟨⟨value, stands, isContainer, found, rfl⟩,
        congrArg (handle :: ·) opened_eq,
        List.nodup_cons.mpr ⟨notOpen, distinct⟩⟩
  next handle cell finished item pending enclosures opened =>
    obtain rfl := Option.some.inj steps
    obtain ⟨holder, nested, isContainer, found, remaining⟩ := stands
    exact ⟨.inside nested isContainer found remaining, opened_eq, distinct⟩
  next handle cell finished enclosures opened =>
    obtain rfl := Option.some.inj steps
    obtain ⟨holder, nested, -⟩ := stands
    exact ⟨⟨holder, nested⟩, congrArg List.tail opened_eq, distinct.tail⟩
  next result handle cell finished pending enclosures opened =>
    obtain rfl := Option.some.inj steps
    obtain ⟨_, nested⟩ := stands
    cases nested with
    | inside outer isContainer found remaining =>
        refine ⟨⟨_, outer, isContainer, found, ?_⟩, opened_eq, distinct⟩
        rw [List.length_append, ← List.drop_drop, remaining]
        rfl
  next => cases steps

/-- By induction on the steps, a walk stays tidy. -/
theorem Tidy.of_steps
    {root : Value}
    {walk next : Walk β}
    (tidy : Tidy heap root walk)
    (steps : rendering.Steps heap walk next) : Tidy heap root next := by
  induction steps with
  | refl => exact tidy
  | tail _ last inductionHypothesis => exact inductionHypothesis.step last

/-- What stands inside the cells of a walk stands at the positions that the
walk took, and is enclosed by these cells. -/
theorem Nested.occurs
    {root value : Value}
    {enclosures : List (Enclosure β)}
    (nested : Nested heap root enclosures value) :
    heap.Occurs root (positionIn enclosures)
      (enclosures.map Enclosure.handle) value := by
  induction nested with
  | root => exact .here root
  | @inside holder item enclosure enclosures _ isContainer found remaining
      inductionHypothesis =>
      have listed : enclosure.cell.values[enclosure.finished.length]? =
          some item := by
        rw [← List.head?_drop, remaining, List.head?_cons]
      rw [positionIn, List.map_cons, List.reverse_cons]
      exact inductionHypothesis.child isContainer found listed

end Rendering

/-- The list of a walk has exactly the cells around the place where the walk
is, the innermost one first. Between two values of a cell the walk is at the
place of the cell and inside it. -/
def Walk.KeepsEnclosing (heap : Heap) (root : Value) : Walk β → Prop
  | ⟨.enter value, enclosures, opened⟩ =>
      heap.Occurs root (positionIn enclosures) opened value
  | ⟨.between, enclosures, opened⟩ =>
      ∃ holder handle others, opened = handle :: others ∧
        holder.container? = some handle ∧
        heap.Occurs root (positionIn enclosures.tail) others holder
  | ⟨.leave _, enclosures, opened⟩ =>
      ∃ value, heap.Occurs root (positionIn enclosures) opened value

/-- Only cells in the value are listed. -/
theorem Walk.KeepsEnclosing.reaches
    {heap : Heap}
    {root : Value}
    {walk : Walk β}
    (keeps : walk.KeepsEnclosing heap root)
    {handle : Handle}
    (isOpen : handle ∈ walk.opened) : heap.Reaches root handle := by
  obtain ⟨stage, enclosures, opened⟩ := walk
  cases stage with
  | enter value => exact Heap.Occurs.reaches_of_mem keeps isOpen
  | leave result =>
      obtain ⟨value, occurs⟩ := keeps
      exact occurs.reaches_of_mem isOpen
  | between =>
      obtain ⟨holder, inner, others, rfl, isContainer, occurs⟩ := keeps
      rcases List.mem_cons.mp isOpen with rfl | isOuter
      · exact occurs.reaches isContainer
      · exact occurs.reaches_of_mem isOuter

namespace Rendering

variable {β : Type} {rendering : Rendering β} {heap : Heap}

/-- A tidy walk lists the cells around its place. -/
theorem Tidy.keepsEnclosing
    {root : Value}
    {walk : Walk β}
    (tidy : Tidy heap root walk) : walk.KeepsEnclosing heap root := by
  obtain ⟨stage, enclosures, opened⟩ := walk
  obtain ⟨stands, opened_eq, -⟩ := tidy
  obtain rfl : opened = enclosures.map Enclosure.handle := opened_eq
  cases stage with
  | enter value => exact stands.occurs
  | leave result => exact stands.imp fun _ nested => nested.occurs
  | between =>
      cases enclosures with
      | nil => cases stands
      | cons enclosure enclosures =>
          obtain ⟨holder, nested, isContainer, -⟩ := stands
          exact ⟨holder, enclosure.handle, _, rfl, isContainer, nested.occurs⟩

/-- A walk is never inside more cells than there are cells inside its value. -/
theorem Tidy.length_opened_le
    {root : Value}
    {walk : Walk β}
    (tidy : Tidy heap root walk) :
    walk.opened.length ≤ {handle | heap.Reaches root handle}.ncard := by
  classical
  have within : (walk.opened.toFinset : Set Handle) ⊆
      {handle | heap.Reaches root handle} :=
    fun handle isOpen =>
      tidy.keepsEnclosing.reaches (List.mem_toFinset.mp isOpen)
  calc walk.opened.length
      = walk.opened.toFinset.card :=
        (List.toFinset_card_of_nodup tidy.distinct).symm
    _ = (walk.opened.toFinset : Set Handle).ncard :=
        (Set.ncard_coe_finset _).symm
    _ ≤ _ := Set.ncard_le_ncard within (Heap.finite_reaches heap root)

/-! ## The end of the walk -/

/-- A walk that can go through each value of a cell goes through the cell. -/
theorem steps_through_cell
    {part : Value → β}
    {handle : Handle}
    {cell : Cell}
    {opened : List Handle}
    (through : ∀ item enclosures,
      rendering.Steps heap ⟨.enter item, enclosures, opened⟩
        ⟨.leave (part item), enclosures, opened⟩)
    (enclosures : List (Enclosure β))
    (pending : List Value)
    (finished : List β) :
    rendering.Steps heap
      ⟨.between, ⟨handle, cell, finished, pending⟩ :: enclosures, opened⟩
      ⟨.leave (rendering.whole cell (finished ++ pending.map part)), enclosures,
        opened.tail⟩ := by
  induction pending generalizing finished with
  | nil =>
      rw [List.map_nil, List.append_nil]
      exact .single rfl
  | cons item pending inductionHypothesis =>
      have further := inductionHypothesis (finished ++ [part item])
      rw [List.append_assoc] at further
      exact .head rfl ((through item _).trans (.head rfl further))

/-- A list of different cells that a walk may keep. -/
structure Distinct (heap : Heap) (opened : List Handle) : Prop where
  /-- No cell is listed twice. -/
  nodup : opened.Nodup
  /-- All of them are cells of the heap. -/
  known : ∀ handle ∈ opened, handle.index < heap.size

theorem distinct_nil (heap : Heap) : Distinct heap [] :=
  ⟨List.nodup_nil, fun _ isOpen => absurd isOpen List.not_mem_nil⟩

/-- A cell that is gone through is another one than those around. -/
theorem Distinct.opening
    {opened : List Handle}
    (distinct : Distinct heap opened)
    {value : Value}
    {handle : Handle}
    {cell : Cell}
    (meets : heap.meet opened value = .whole handle cell) :
    Distinct heap (handle :: opened) := by
  obtain ⟨isContainer, found, notOpen⟩ := Heap.meet_eq_whole_iff.mp meets
  exact
    { nodup := List.nodup_cons.mpr ⟨notOpen, distinct.nodup⟩
      known := List.forall_mem_cons.mpr
        ⟨Heap.index_lt_size (Heap.cell?_of_inside? isContainer found),
          distinct.known⟩ }

/-- There are no more different cells than cells. -/
theorem Distinct.length_le_size
    {opened : List Handle}
    (distinct : Distinct heap opened) : opened.length ≤ heap.size := by
  have indices : (opened.map Handle.index).Nodup :=
    distinct.nodup.map fun first second same => Handle.mk.injEq .. ▸ same
  have among : opened.map Handle.index ⊆ List.range heap.size := by
    intro index listed
    obtain ⟨handle, isOpen, rfl⟩ := List.mem_map.mp listed
    exact List.mem_range.mpr (distinct.known handle isOpen)
  simpa using (indices.subperm among).length_le

/-- Where a cell is gone into, the bound is not used up. -/
theorem Distinct.exists_depth
    {opened : List Handle}
    (distinct : Distinct heap opened)
    {value : Value}
    {handle : Handle}
    {cell : Cell}
    (meets : heap.meet opened value = .whole handle cell)
    {depth : Nat}
    (bound : heap.size ≤ depth + opened.length) :
    ∃ rest, depth = rest + 1 ∧
      heap.size ≤ rest + (handle :: opened).length := by
  have oneMore := (distinct.opening meets).length_le_size
  rw [List.length_cons] at oneMore ⊢
  exact ⟨depth - 1, by omega, by omega⟩

/-- The bound is never what stops the recursion. -/
theorem bounded_induction
    {motive : Nat → List Handle → Value → Prop}
    (leaf : ∀ depth opened value, heap.meet opened value = .leaf →
      motive depth opened value)
    (cut : ∀ depth opened value, heap.meet opened value = .cut →
      motive depth opened value)
    (whole : ∀ depth opened value handle cell,
      heap.meet opened value = .whole handle cell →
      (∀ item, motive depth (handle :: opened) item) →
        motive (depth + 1) opened value)
    (depth : Nat)
    (opened : List Handle)
    (distinct : Distinct heap opened)
    (bound : heap.size ≤ depth + opened.length)
    (value : Value) : motive depth opened value := by
  induction depth using Nat.strong_induction_on generalizing opened value with
  | h depth inductionHypothesis =>
      cases meets : heap.meet opened value with
      | leaf => exact leaf depth opened value meets
      | cut => exact cut depth opened value meets
      | whole handle cell =>
          obtain ⟨rest, rfl, below⟩ := distinct.exists_depth meets bound
          apply whole rest opened value handle cell meets
          intro item
          apply inductionHypothesis rest (Nat.lt_succ_self rest)
          · exact distinct.opening meets
          · exact below

/-- A walk leaves every value that it enters, with what the bounded recursion
makes of it. -/
theorem steps_walkWithin
    (depth : Nat)
    (opened : List Handle)
    (distinct : Distinct heap opened)
    (bound : heap.size ≤ depth + opened.length)
    (value : Value)
    (enclosures : List (Enclosure β)) :
    rendering.Steps heap ⟨.enter value, enclosures, opened⟩
      ⟨.leave (rendering.walkWithin heap depth opened value), enclosures,
        opened⟩ := by
  refine bounded_induction
    (motive := fun depth opened value => ∀ enclosures,
      rendering.Steps heap ⟨.enter value, enclosures, opened⟩
        ⟨.leave (rendering.walkWithin heap depth opened value),
          enclosures, opened⟩)
    ?leaf ?cut ?whole depth opened distinct bound value enclosures
  case leaf =>
    intro depth opened value meets enclosures
    exact .single (by rw [step, meets, walkWithin_of_leaf meets])
  case cut =>
    intro depth opened value meets enclosures
    exact .single (by rw [step, meets, walkWithin_of_cut meets])
  case whole =>
    intro depth opened value handle cell meets inductionHypothesis enclosures
    have opens : rendering.step heap ⟨.enter value, enclosures, opened⟩ =
        some ⟨.between, ⟨handle, cell, [], cell.values⟩ :: enclosures,
          handle :: opened⟩ := by
      rw [step, meets]
    rw [walkWithin_of_whole meets]
    exact .head opens
      (steps_through_cell inductionHypothesis enclosures cell.values [])

/-- A walk through a value ends with a result, whatever cells contain one
another, and at every moment its list has exactly the cells around the place
where it is. -/
structure WalksTo
    (rendering : Rendering β)
    (heap : Heap)
    (value : Value)
    (result : β) : Prop where
  /-- The result is reached. -/
  ends : rendering.Steps heap (.start value) (.finished result)
  /-- There the walk stops. -/
  stops : rendering.step heap (.finished result) = none
  /-- From every moment the result is reached. -/
  goesOn : ∀ walk, rendering.Steps heap (.start value) walk →
    rendering.Steps heap walk (.finished result)
  /-- It does not stop anywhere else. -/
  closes : ∀ walk, rendering.Steps heap (.start value) walk →
    rendering.step heap walk = none → walk = .finished result
  /-- No cell is listed twice. -/
  distinct : ∀ walk, rendering.Steps heap (.start value) walk →
    walk.opened.Nodup
  /-- The cells listed are those around the place. -/
  encloses : ∀ walk, rendering.Steps heap (.start value) walk →
    walk.KeepsEnclosing heap value
  /-- There are no more of them than cells that can be reached. -/
  nesting : ∀ walk, rendering.Steps heap (.start value) walk →
    walk.opened.length ≤ {handle | heap.Reaches value handle}.ncard

/-- The walk ends with what the recursion makes. -/
theorem walksTo_walkWithin (value : Value) :
    rendering.WalksTo heap value
      (rendering.walkWithin heap heap.size [] value) := by
  have ends : rendering.Steps heap (.start value)
      (.finished (rendering.walkWithin heap heap.size [] value)) :=
    steps_walkWithin heap.size [] (distinct_nil heap) (Nat.le_refl _) value []
  have tidy {walk : Walk β} (steps : rendering.Steps heap (.start value) walk) :
      Tidy heap value walk := (tidy_start value).of_steps steps
  -- A walk has one next step at most, and the last moment has none.
  have unique : Relator.RightUnique fun walk next =>
      rendering.step heap walk = some next :=
    fun _ _ _ first second => Option.some.inj (first.symm.trans second)
  have goesOn {walk : Walk β}
      (steps : rendering.Steps heap (.start value) walk) :
      rendering.Steps heap walk
        (.finished (rendering.walkWithin heap heap.size [] value)) := by
    rcases Relation.ReflTransGen.total_of_right_unique unique steps ends
      with onwards | beyond
    · exact onwards
    · rcases Relation.ReflTransGen.cases_head beyond with rfl |
        ⟨next, absurd, _⟩
      · exact .refl
      · cases absurd
  refine
    { ends := ends
      stops := rfl
      goesOn := fun walk steps => goesOn steps
      closes := fun walk steps stopped => ?_
      distinct := fun walk steps => (tidy steps).distinct
      encloses := fun walk steps => (tidy steps).keepsEnclosing
      nesting := fun walk steps => (tidy steps).length_opened_le }
  rcases Relation.ReflTransGen.cases_head (goesOn steps) with same |
    ⟨next, further, _⟩
  · exact same
  · cases stopped.symm.trans further

end Rendering

/-- JSON and text of a value are made by walks that end, also where cells lie
inside themselves. The cells that a walk keeps at a moment are different and
are those around the place where it is, so there are never more of them than
cells inside the value; when the walk ends it keeps none. -/
theorem walks_keep_enclosing_cells_and_end (heap : Heap) (value : Value) :
    Rendering.json.WalksTo heap value (heap.toJson value) ∧
      Rendering.text.WalksTo heap value (heap.text value) := by
  constructor
  · rw [Heap.toJson, Rendering.toJsonWithin_eq]
    exact Rendering.walksTo_walkWithin value
  · rw [Heap.text, Rendering.textWithin_eq]
    exact Rendering.walksTo_walkWithin value

end CommonJs
