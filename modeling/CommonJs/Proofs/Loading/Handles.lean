import CommonJs.Proofs.Loading.Instructions
import CommonJs.Proofs.Value.Handles

/-!
# Loaders hold nothing but cells

At every moment of a run, whatever a variable, a global, a record, a cell, a
body or an answer holds is a cell of the heap or no cell at all. Each step adds
cells and takes none away. So the handle of a new cell is one that nobody
holds.
-/

namespace CommonJs

namespace Loader

/-- What can be reached in a loader: the values of names, what records export,
and what is in cells. -/
inductive Holds (loader : Loader) (value : Value) : Prop
  | named (name : String) :
      loader.workspace.store[name]? = some value → Holds loader value
  | global (name : String) : loader.globals[name]? = some value →
      Holds loader value
  | exported (id : Nat) (record : ModuleRecord) :
      loader.record? id = some record → record.exports = value →
        Holds loader value
  | inside (handle : Handle) (cell : Cell) :
      loader.workspace.heap.cell? handle = some cell → value ∈ cell.values →
        Holds loader value

/-- The heap of a loader knows everything that the loader holds. -/
structure Grounded (loader : Loader) : Prop where
  /-- Cells and variables are known. -/
  workspace : loader.workspace.Sound loader.globals none
  /-- So are the exports of every record. -/
  exports : ∀ id record, loader.record? id = some record →
    loader.workspace.heap.Knows record.exports

/-- What comes out of a grounded loader: a grounded loader with a heap that
has grown, and a value of it. -/
structure Leaves (before : Loader) (value : Value) (after : Loader) : Prop where
  /-- No cell is given up. -/
  size_le : before.workspace.heap.size ≤ after.workspace.heap.size
  /-- The loader is grounded. -/
  grounded : after.Grounded
  /-- The value is one of its heap. -/
  knows : after.workspace.heap.Knows value

section Grounded

variable {loader after : Loader} {value : Value}

/-- What a grounded loader holds, its heap knows. -/
theorem Grounded.knows_of_holds
    (grounded : loader.Grounded)
    (holds : loader.Holds value) : loader.workspace.heap.Knows value := by
  cases holds with
  | named name found => exact grounded.workspace.known.store name value found
  | global name found => exact grounded.workspace.known.globals name value found
  | exported id record found exports =>
      exact exports ▸ grounded.exports id record found
  | inside handle cell found listed =>
      exact grounded.workspace.closed handle cell found value listed

/-- What is remembered, cached, or noted holds no values. -/
theorem Grounded.of_eq
    (grounded : loader.Grounded)
    (workspace : after.workspace = loader.workspace)
    (globals : after.globals = loader.globals)
    (records : after.records = loader.records) : after.Grounded where
  workspace := by
    rw [workspace, globals]
    exact grounded.workspace
  exports id record found := by
    rw [record?, records] at found
    rw [workspace]
    exact grounded.exports id record found

theorem Grounded.knows_exportsOf
    (grounded : loader.Grounded)
    (id : Nat) : loader.workspace.heap.Knows (loader.exportsOf id) := by
  refine .getD fun value found => ?_
  obtain ⟨record, isRecord, rfl⟩ := Option.map_eq_some_iff.mp found
  exact grounded.exports id record isRecord

/-- Another workspace, with a heap that has grown. -/
theorem Grounded.withWorkspace
    (grounded : loader.Grounded)
    {workspace : Workspace}
    (size_le : loader.workspace.heap.size ≤ workspace.heap.size)
    (sound : workspace.Sound loader.globals none) :
    Grounded { loader with workspace } where
  workspace := sound
  exports id record found := (grounded.exports id record found).mono size_le

/-- A variable may be set to what the heap knows. -/
theorem Grounded.assign
    (grounded : loader.Grounded)
    (knows : loader.workspace.heap.Knows value)
    (name : String) : (loader.assign name value).Grounded :=
  grounded.withWorkspace (Nat.le_refl _) (grounded.workspace.assign knows name)

theorem Grounded.withGlobal
    (grounded : loader.Grounded)
    (knows : loader.workspace.heap.Knows value)
    (name : String) :
    Grounded { loader with globals := loader.globals.insert name value } where
  workspace :=
    { closed := grounded.workspace.closed
      known :=
        { grounded.workspace.known with
          globals := fun other held found => by
            rw [Std.TreeMap.getElem?_insert] at found
            split at found
            · exact Option.some.inj found ▸ knows
            · exact grounded.workspace.known.globals other held found } }
  exports := grounded.exports

/-- A record may be changed if its new exports are known. -/
theorem Grounded.modify
    (grounded : loader.Grounded)
    (id : Nat)
    {change : ModuleRecord → ModuleRecord}
    (known : ∀ record, loader.record? id = some record →
      loader.workspace.heap.Knows (change record).exports) :
    Grounded { loader with records := loader.records.modify id change } where
  workspace := grounded.workspace
  exports other record found := by
    rw [record?, Array.getElem?_modify] at found
    split at found
    next same =>
      obtain ⟨former, isFormer, rfl⟩ := Option.map_eq_some_iff.mp found
      exact known former (same ▸ isFormer)
    next => exact grounded.exports other record found

theorem Grounded.setExports
    (grounded : loader.Grounded)
    (knows : loader.workspace.heap.Knows value)
    (id : Nat) : (loader.setExports id value).Grounded :=
  grounded.modify id fun _ _ => knows

theorem Grounded.finishRecord
    (grounded : loader.Grounded)
    (id : Nat) : (loader.finishRecord id).Grounded := by
  have finished : Grounded
      { loader with
        records := loader.records.modify id fun record =>
          { record with loaded := true } } :=
    grounded.modify id fun record found => grounded.exports id record found
  exact finished.of_eq rfl rfl rfl

/-- A loader stays grounded when its heap becomes one that yields a value. -/
theorem Grounded.of_yields
    (grounded : loader.Grounded)
    {heap : Heap}
    (yields : loader.workspace.heap.Yields [value] heap) :
    loader.Leaves value
      { loader with workspace := { loader.workspace with heap } } where
  size_le := yields.size_le
  grounded :=
    grounded.withWorkspace yields.size_le (grounded.workspace.of_yields yields)
  knows := yields.knows

/-- The new object is known, and all else is as before. -/
theorem Grounded.newObject
    (grounded : loader.Grounded) :
    loader.Leaves loader.newObject.1 loader.newObject.2 :=
  grounded.of_yields (Heap.yields_newObject grounded.workspace.closed)

/-- A new record comes with exports that are new, too. -/
theorem Grounded.openRecord
    (grounded : loader.Grounded)
    (filename : Path) :
    loader.workspace.heap.size ≤
        (loader.openRecord filename).2.workspace.heap.size ∧
      (loader.openRecord filename).2.Grounded := by
  have made := grounded.newObject
  refine ⟨made.size_le, made.grounded.workspace, fun id record found => ?_⟩
  have pushed :
      (loader.records.push ⟨filename, loader.newObject.1, false⟩)[id]? =
        some record := found
  rw [Array.getElem?_push] at pushed
  split at pushed
  · obtain rfl := Option.some.inj pushed
    exact made.knows
  · exact made.grounded.exports id record pushed

/-- A new loader holds nothing. -/
theorem Grounded.new
    (resolver : Resolver)
    (bodies : List (String × Script)) :
    (Loader.new resolver bodies).Grounded where
  workspace :=
    { closed := fun handle cell found => by
        simp [Loader.new, Workspace.empty, Heap.empty, Heap.cell?] at found
      known :=
        { store := fun name value found => by
            simp [Loader.new, Workspace.empty] at found
          globals := fun name value found => by simp [Loader.new] at found
          exports := nofun
          moduleExports := nofun } }
  exports id record found := by simp [Loader.new, record?] at found

/-! ## Bodies -/

/-- A body sees values that the heap knows. -/
theorem Grounded.scope
    (grounded : loader.Grounded)
    {exports : Value}
    (knows : loader.workspace.heap.Knows exports)
    (frame : Frame) :
    loader.workspace.Sound loader.globals
      (some (Running.scopeOf loader frame exports)) where
  closed := grounded.workspace.closed
  known :=
    { grounded.workspace.known with
      exports := by
        rintro scope ⟨⟩
        exact knows
      moduleExports := by
        rintro scope ⟨⟩
        exact grounded.knows_exportsOf frame.record }

end Grounded
end Loader

/-- The values of names in a body are those outside of it. -/
theorem Workspace.Sound.outside
    {workspace : Workspace}
    {globals : Std.TreeMap String Value}
    {scope : Option Scope}
    (sound : workspace.Sound globals scope) : workspace.Sound globals none where
  closed := sound.closed
  known := { sound.known with exports := nofun, moduleExports := nofun }

namespace Loader

variable {loader : Loader} {frame : Frame} {exports : Value}

/-- An expression in a body has a value that the heap then knows. -/
theorem Grounded.evalIn
    (grounded : loader.Grounded)
    (knows : loader.workspace.heap.Knows exports)
    (frame : Frame)
    (expr : Expr) :
    loader.Leaves (loader.evalIn frame exports expr).1
      (loader.evalIn frame exports expr).2 := by
  have sound := grounded.scope knows frame
  have yields := sound.yields_eval expr
  exact
    { size_le := yields.size_le
      grounded :=
        grounded.withWorkspace yields.size_le (sound.eval expr).outside
      knows := yields.knows }

/-- A change in a body leaves nothing unknown. -/
theorem Grounded.changeIn
    (grounded : loader.Grounded)
    (knows : loader.workspace.heap.Knows exports)
    (frame : Frame)
    (change : Change) :
    loader.workspace.heap.size ≤
        (loader.changeIn frame exports change).2.workspace.heap.size ∧
      (loader.changeIn frame exports change).2.Grounded := by
  obtain ⟨size_le, sound⟩ := change.sound_run (grounded.scope knows frame)
  exact ⟨size_le, grounded.withWorkspace size_le sound.outside⟩

/-- An expression of an operation has a value that the heap then knows. -/
theorem Grounded.eval
    (grounded : loader.Grounded)
    (expr : Expr) : loader.Leaves (loader.eval expr).1 (loader.eval expr).2 :=
  { size_le := (grounded.workspace.yields_eval expr).size_le
    grounded :=
      grounded.withWorkspace (grounded.workspace.yields_eval expr).size_le
        (grounded.workspace.eval expr)
    knows := (grounded.workspace.yields_eval expr).knows }

end Loader

/-! ## Steps -/

/-- The value that a phase is about: the one `exports` is bound to in a body
that goes on, and the one that is handed on or answered. -/
def Phase.value? : Phase → Option Value
  | .running _ exports _ => some exports
  | .returning (.ok value) => some value
  | .resting (.value value) => some value
  | _ => none

/-- A loader and a phase that come out of a grounded loader. -/
structure Loader.LeadsTo (before : Loader) (next : Phase × Loader) : Prop where
  /-- No cell is given up. -/
  size_le : before.workspace.heap.size ≤ next.2.workspace.heap.size
  /-- The loader is grounded. -/
  grounded : next.2.Grounded
  /-- The value of the phase is one of its heap. -/
  known : ∀ value, next.1.value? = some value →
    next.2.workspace.heap.Knows value

namespace Loader

section LeadsTo

variable {loader : Loader}

/-- The workspace stays as it is. -/
theorem Grounded.leadsTo
    (grounded : loader.Grounded)
    {phase : Phase}
    (known : ∀ value, phase.value? = some value →
      loader.workspace.heap.Knows value) :
    loader.LeadsTo (phase, loader) :=
  ⟨Nat.le_refl _, grounded, known⟩

/-- A phase that holds no other value than the one that came out is known. -/
theorem Leaves.leadsTo
    {value : Value}
    {after : Loader}
    (leaves : loader.Leaves value after)
    {phase : Phase}
    (same : ∀ other, phase.value? = some other → other = value) :
    loader.LeadsTo (phase, after) :=
  ⟨leaves.size_le, leaves.grounded, fun other isValue =>
    same other isValue ▸ leaves.knows⟩

/-- A request makes nothing but objects for stubs. -/
theorem Grounded.request
    (grounded : loader.Grounded)
    {context : Path}
    {specifier : String}
    {origin : Option Path}
    {after : Phase × Loader}
    (requested : loader.Requested context specifier origin after) :
    loader.LeadsTo after := by
  have remembers (memo : DescriptorMemo) : Grounded { loader with memo } :=
    grounded.of_eq rfl rfl rfl
  cases requested with
  | path _ _ => exact ⟨Nat.le_refl _, remembers _, nofun⟩
  | @stub _ memo _ _ =>
      have made := (remembers memo).newObject
      refine ⟨made.size_le, made.grounded, ?_⟩
      rintro value ⟨⟩
      exact made.knows
  | unresolved _ _ => exact ⟨Nat.le_refl _, remembers _, nofun⟩

/-- A look for a record gives exports or opens a new record. -/
theorem Grounded.look
    (grounded : loader.Grounded)
    (path : Path) : loader.LeadsTo (loader.look path) := by
  unfold Loader.look
  split
  next id _ =>
    refine grounded.leadsTo ?_
    rintro value ⟨⟩
    exact grounded.knows_exportsOf id
  next =>
    obtain ⟨size_le, opened⟩ :=
      grounded.openRecord (loader.resolver.fileSystem.canonicalize path)
    refine ⟨size_le, opened, ?_⟩
    rintro value ⟨⟩

/-- Data becomes a value that the heap knows; a body starts with its exports. -/
theorem Grounded.start
    (grounded : loader.Grounded)
    {id : Nat}
    {filename : Path}
    {after : Phase × Loader}
    (started : loader.Started id filename after) : loader.LeadsTo after := by
  cases started with
  | unreadable _ => exact grounded.leadsTo nofun
  | malformed _ _ => exact grounded.leadsTo nofun
  | data json _ _ =>
      have made :=
        grounded.of_yields (Heap.yields_ofJson _ grounded.workspace.closed json)
      exact ⟨made.size_le, made.grounded.setExports made.knows id, nofun⟩
  | unknown _ _ _ => exact ⟨Nat.le_refl _, grounded.of_eq rfl rfl rfl, nofun⟩
  | body frame runs _ _ _ _ _ =>
      refine ⟨Nat.le_refl _, grounded.of_eq rfl rfl rfl, ?_⟩
      rintro value ⟨⟩
      exact grounded.knows_exportsOf id

/-- What a record exports is known when its load ends. -/
theorem Grounded.close
    (grounded : loader.Grounded)
    (id : Nat)
    (filename : Path)
    (outcome : Except LoadError Unit) :
    loader.LeadsTo (loader.close id filename outcome) := by
  cases outcome with
  | ok _ =>
      refine ⟨Nat.le_refl _, grounded.finishRecord id, ?_⟩
      rintro value ⟨⟩
      exact (grounded.finishRecord id).knows_exportsOf id
  | error error => exact ⟨Nat.le_refl _, grounded.of_eq rfl rfl rfl, nofun⟩

/-- A body that goes on has its module under a name. -/
theorem Grounded.resume
    (grounded : loader.Grounded)
    {waiting : Waiting}
    (exports : loader.workspace.heap.Knows waiting.exports)
    {outcome : Except LoadError Value}
    (known : ∀ value, outcome = .ok value → loader.workspace.heap.Knows value)
    {after : Phase × Loader}
    (resumed : loader.Resumed waiting outcome after) :
    loader.LeadsTo after := by
  have goesOn {after : Loader} (grounded : after.Grounded)
      (workspace : after.workspace.heap = loader.workspace.heap) :
      loader.LeadsTo
        (.running waiting.frame waiting.exports waiting.rest, after) := by
    refine ⟨Nat.le_of_eq (by rw [workspace]), grounded, ?_⟩
    rintro other ⟨⟩
    rw [workspace]
    exact exports
  cases resumed with
  | given value =>
      exact goesOn (grounded.assign (known value rfl) waiting.name) rfl
  | caught error _ =>
      have noted : (loader.emit (.caught error)).Grounded :=
        grounded.of_eq rfl rfl rfl
      have nothing : loader.workspace.heap.Knows .undefined :=
        Heap.knows_of_handle?_eq_none rfl
      have cleared := noted.assign nothing waiting.name
      exact goesOn
        (cleared.assign (Heap.knows_of_handle?_eq_none rfl) "err") rfl
  | uncaught error _ => exact grounded.leadsTo nofun

/-- The result of an operation is known when it is set. -/
theorem Grounded.conclude
    (grounded : loader.Grounded)
    (name : Option String)
    {outcome : Except LoadError Value}
    (known : ∀ value, outcome = .ok value → loader.workspace.heap.Knows value) :
    loader.LeadsTo
      (.resting (loader.conclude name outcome).1,
        (loader.conclude name outcome).2) := by
  cases outcome with
  | ok value =>
      have isKnown := known value rfl
      cases name with
      | none =>
          refine grounded.leadsTo ?_
          rintro other ⟨⟩
          exact isKnown
      | some name =>
          refine ⟨Nat.le_refl _, grounded.assign isKnown name, ?_⟩
          rintro other ⟨⟩
          exact isKnown
  | error error => exact grounded.leadsTo nofun

end LeadsTo
end Loader

/-- An instruction that is no request leaves a grounded loader, and a value
for `exports` that its heap knows. -/
theorem Effect.leadsTo
    {frame : Frame}
    {exports : Value}
    {first : Instr}
    {before after : Loader}
    {result : Except BodyError Value}
    (effect : Effect frame exports before first result after)
    (grounded : before.Grounded)
    (knows : before.workspace.heap.Knows exports)
    (rest : Script) : before.LeadsTo (frame.next rest result, after) := by
  have goesOn {after : Loader}
      (size_le : before.workspace.heap.size ≤ after.workspace.heap.size)
      (grounded : after.Grounded) :
        before.LeadsTo (frame.next rest (.ok exports), after) := by
    refine ⟨size_le, grounded, ?_⟩
    rintro value ⟨⟩
    exact knows.mono size_le
  have stops {after : Loader} {error : BodyError}
      (size_le : before.workspace.heap.size ≤ after.workspace.heap.size)
      (grounded : after.Grounded) :
        before.LeadsTo (frame.next rest (.error error), after) :=
    ⟨size_le, grounded, nofun⟩
  cases effect with
  | change change =>
      obtain ⟨size_le, changed⟩ := grounded.changeIn knows frame change
      split
      · exact goesOn size_le changed
      · exact stops size_le changed
  | @resolve _ name found memo path _ _ =>
      have remembers : Loader.Grounded { before with memo } :=
        grounded.of_eq rfl rfl rfl
      refine goesOn (Nat.le_refl _)
        (remembers.assign (Heap.knows_of_handle?_eq_none ?_) name)
      cases path with
      | none => rfl
      | some path => rfl
  | unresolved name _ _ =>
      exact stops (Nat.le_refl _) (grounded.of_eq rfl rfl rfl)
  | tryResolve _ _ => exact goesOn (Nat.le_refl _) (grounded.of_eq rfl rfl rfl)
  | setExports expr =>
      have evaluated := grounded.evalIn knows frame expr
      exact goesOn evaluated.size_le
        (evaluated.grounded.setExports evaluated.knows frame.record)
  | rebind expr =>
      have evaluated := grounded.evalIn knows frame expr
      refine evaluated.leadsTo ?_
      rintro value ⟨⟩
      rfl
  | log expr =>
      have evaluated := grounded.evalIn knows frame expr
      exact goesOn evaluated.size_le (evaluated.grounded.of_eq rfl rfl rfl)
  | throwValue expr =>
      have evaluated := grounded.evalIn knows frame expr
      exact stops evaluated.size_le evaluated.grounded
  | stop _ failure => exact stops (Nat.le_refl _) grounded
  | goOn _ => exact goesOn (Nat.le_refl _) grounded

namespace Moment

/-- The loader of a moment is grounded, and its heap knows the values of the
phase and of the bodies that wait. -/
structure Grounded (moment : Moment) : Prop where
  /-- The loader holds nothing that its heap does not know. -/
  loader : moment.loader.Grounded
  /-- The value of the phase is known. -/
  phase : ∀ value, moment.phase.value? = some value →
    moment.loader.workspace.heap.Knows value
  /-- So is what each waiting body calls its exports. -/
  waiting : ∀ waiting ∈ moment.waiting,
    moment.loader.workspace.heap.Knows waiting.exports

/-- What is held at a moment: by the loader, by the phase or by a body that
waits. -/
inductive Holds (moment : Moment) (value : Value) : Prop
  | loader : moment.loader.Holds value → Holds moment value
  | phase : moment.phase.value? = some value → Holds moment value
  | waiting (waiting : Waiting) :
      waiting ∈ moment.waiting → waiting.exports = value → Holds moment value

section Steps

variable {moment next : Moment}

/-- The same of all that a moment holds. -/
theorem Grounded.knows_of_holds
    (grounded : moment.Grounded)
    {value : Value}
    (holds : moment.Holds value) :
    moment.loader.workspace.heap.Knows value := by
  cases holds with
  | loader holds => exact grounded.loader.knows_of_holds holds
  | phase isValue => exact grounded.phase value isValue
  | waiting waiting listed exports =>
      exact exports ▸ grounded.waiting waiting listed

/-- The bodies that wait know what they knew. -/
theorem Grounded.become
    (grounded : moment.Grounded)
    {after : Phase × Loader}
    (leads : moment.loader.LeadsTo after) : (moment.become after).Grounded where
  loader := leads.grounded
  phase := leads.known
  waiting waiting listed := (grounded.waiting waiting listed).mono leads.size_le

/-- No step loses a cell or makes a handle up. -/
theorem Grounded.of_step
    (grounded : moment.Grounded)
    (stepped : moment.step = some next) : next.Grounded := by
  have known {outcome : Except LoadError Value}
      (phase : moment.phase = .returning outcome) :
      ∀ value, outcome = .ok value →
        moment.loader.workspace.heap.Knows value := by
    rintro value rfl
    exact grounded.phase value (by rw [phase]; rfl)
  cases stepped_of_step stepped with
  | request phase requested =>
      exact grounded.become (grounded.loader.request requested)
  | look path phase => exact grounded.become (grounded.loader.look path)
  | start _ started => exact grounded.become (grounded.loader.start started)
  | finish frame exports phase =>
      exact grounded.become (grounded.loader.leadsTo nofun)
  | ask phase requests =>
      refine ⟨grounded.loader, nofun, ?_⟩
      intro waiting listed
      rcases List.mem_cons.mp listed with rfl | listed
      · exact grounded.phase _ (by rw [phase]; rfl)
      · exact grounded.waiting waiting listed
  | instr phase _ _ effect =>
      exact grounded.become
        (effect.leadsTo grounded.loader
          (grounded.phase _ (by rw [phase]; rfl)) _)
  | close id filename outcome phase =>
      exact grounded.become (grounded.loader.close id filename outcome)
  | resume phase waits resumed =>
      have leads := grounded.loader.resume
        (grounded.waiting _ (by rw [waits]; exact List.mem_cons_self))
        (known phase) resumed
      refine ⟨leads.grounded, leads.known, fun other listed => ?_⟩
      exact (grounded.waiting other
          (by rw [waits]; exact List.mem_cons_of_mem _ listed)).mono
        leads.size_le
  | conclude outcome phase noneWait =>
      have leads := grounded.loader.conclude moment.name (known phase)
      exact ⟨leads.grounded, leads.known, nofun⟩

theorem grounded_of_begin
    {loader : Loader}
    {operation : Operation}
    (grounded : loader.Grounded)
    (begun : begin loader operation = some next) : next.Grounded := by
  cases begun_of_begin begun with
  | requireFrom context specifier name => exact ⟨grounded, nofun, nofun⟩
  | requireModule path name => exact ⟨grounded, nofun, nofun⟩
  | requireNothing name =>
      refine ⟨grounded.newObject.grounded, ?_, nofun⟩
      rintro value ⟨⟩
      exact grounded.newObject.knows
  | resolveFrom _ => exact ⟨grounded.of_eq rfl rfl rfl, nofun, nofun⟩
  | setNothing expr _ => exact ⟨grounded, nofun, nofun⟩
  | setExports expr _ =>
      have evaluated := grounded.eval expr
      exact ⟨evaluated.grounded.setExports evaluated.knows _, nofun, nofun⟩
  | withConfig config => exact ⟨grounded.of_eq rfl rfl rfl, nofun, nofun⟩
  | withGlobal name expr =>
      have evaluated := grounded.eval expr
      exact ⟨evaluated.grounded.withGlobal evaluated.knows name, nofun, nofun⟩
  | change change =>
      obtain ⟨size_le, sound⟩ := change.sound_run grounded.workspace
      exact ⟨grounded.withWorkspace size_le sound, nofun, nofun⟩
  | eval expr =>
      refine ⟨(grounded.eval expr).grounded, ?_, nofun⟩
      rintro value ⟨⟩
      exact (grounded.eval expr).knows

theorem grounded_initial
    (resolver : Resolver)
    (bodies : List (String × Script)) :
    (initial (.new resolver bodies)).Grounded where
  loader := .new resolver bodies
  phase := nofun
  waiting := nofun

/-- By induction on the run, all values that are held have cells. -/
theorem Run.grounded
    {resolver : Resolver}
    {bodies : List (String × Script)}
    {past : List Moment}
    (run : Run (initial (.new resolver bodies)) past moment) :
    moment.Grounded := by
  induction run with
  | start => exact grounded_initial resolver bodies
  | next _ follows inductionHypothesis =>
      cases follows with
      | step stepped => exact inductionHypothesis.of_step stepped
      | operation _ _ _ begun =>
          exact grounded_of_begin inductionHypothesis.loader begun

end Steps
end Moment

end CommonJs
