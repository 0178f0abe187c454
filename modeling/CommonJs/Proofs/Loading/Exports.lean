import CommonJs.Proofs.Loading.Stack

/-!
# What a module exports is live

A record is made before its body runs, and whoever asks for the module gets
what the record exports at that moment, be the body under way or over. Only
two things change that: the module itself, or an operation, sets the exports.
So between two such changes all who ask get one value, which for an object or
an array is one cell. What the body binds the name `exports` to has no part
in it.
-/

namespace CommonJs

namespace Loader

/-- A record is there and exports a value. -/
def Exports (loader : Loader) (id : Nat) (value : Value) : Prop :=
  (loader.record? id).map (·.exports) = some value

section Exports

variable {loader after : Loader} {id : Nat} {value : Value}

/-- The exports of a record are what it exports. -/
theorem Exports.exportsOf_eq
    (exports : loader.Exports id value) : loader.exportsOf id = value := by
  rw [exportsOf, exports, Option.getD_some]

/-- A record that was made has exports. -/
theorem exports_exportsOf
    (made : (loader.mark? id).isSome = true) :
    loader.Exports id (loader.exportsOf id) := by
  unfold Exports exportsOf
  rw [mark?, Option.isSome_map] at made
  obtain ⟨record, found⟩ := Option.isSome_iff_exists.mp made
  rw [found]
  rfl

theorem Exports.lt_size
    (exports : loader.Exports id value) : id < loader.records.size := by
  obtain ⟨_, found, _⟩ := Option.map_eq_some_iff.mp exports
  exact (Array.getElem?_eq_some_iff.mp found).1

theorem Exports.of_records_eq
    (exports : loader.Exports id value)
    (same : after.records = loader.records) : after.Exports id value := by
  unfold Exports record? at *
  rw [same, exports]

/-- What another record exports is left alone. -/
theorem Exports.setExports
    (exports : loader.Exports id value)
    {changed : Nat}
    (other : changed ≠ id)
    (new : Value) : (loader.setExports changed new).Exports id value := by
  unfold Exports record? Loader.setExports at *
  rw [Array.getElem?_modify, if_neg other, exports]

/-- A new record changes no other. -/
theorem Exports.openRecord
    (exports : loader.Exports id value)
    (filename : Path) : (loader.openRecord filename).2.Exports id value := by
  have older : id ≠ loader.records.size := exports.lt_size.ne
  have pushed : (loader.openRecord filename).2.record? id =
      loader.record? id := by
    simp [Loader.openRecord, record?, newObject, Array.getElem?_push, older]
  rw [Exports, pushed, exports]

theorem Exports.look
    (exports : loader.Exports id value)
    (path : Path) : (loader.look path).2.Exports id value := by
  unfold Loader.look
  split
  · exact exports
  · exact exports.openRecord _

/-- A record that is complete exports what it did before. -/
theorem exports_finishRecord (loader : Loader) (finished id : Nat) :
    ((loader.finishRecord finished).record? id).map (·.exports) =
      (loader.record? id).map (·.exports) := by
  unfold finishRecord record?
  rw [Array.getElem?_modify]
  split
  · rw [Option.map_map]
    rfl
  · rfl

theorem exportsOf_finishRecord (loader : Loader) (finished id : Nat) :
    (loader.finishRecord finished).exportsOf id = loader.exportsOf id := by
  rw [exportsOf, exportsOf, exports_finishRecord]

end Exports

/-! ## Records along a step -/

theorem Requested.records
    {loader : Loader}
    {context : Path}
    {specifier : String}
    {origin : Option Path}
    {after : Phase × Loader}
    (requested : loader.Requested context specifier origin after) :
    after.2.records = loader.records := by
  cases requested with
  | _ => rfl

theorem Resumed.records
    {loader : Loader}
    {waiting : Waiting}
    {outcome : Except LoadError Value}
    {after : Phase × Loader}
    (resumed : loader.Resumed waiting outcome after) :
    after.2.records = loader.records := by
  cases resumed with
  | _ => rfl

theorem records_conclude
    (loader : Loader)
    (name : Option String)
    (outcome : Except LoadError Value) :
    (loader.conclude name outcome).2.records = loader.records := by
  cases outcome with
  | ok value => cases name <;> rfl
  | error error => rfl

/-- To begin a load changes the exports of its own record at most. -/
theorem Started.exports
    {loader : Loader}
    {opened : Nat}
    {filename : Path}
    {after : Phase × Loader}
    (started : loader.Started opened filename after)
    {id : Nat}
    {value : Value}
    (exports : loader.Exports id value)
    (other : opened ≠ id) : after.2.Exports id value := by
  cases started with
  | data json _ _ => exact Exports.setExports exports other _
  | _ => exact exports

/-- Neither the end of a load nor its failure changes exports. -/
theorem Exports.close
    {loader : Loader}
    {id : Nat}
    {value : Value}
    (exports : loader.Exports id value)
    (closed : Nat)
    (filename : Path)
    (outcome : Except LoadError Unit) :
    (loader.close closed filename outcome).2.Exports id value := by
  cases outcome with
  | ok _ => exact (loader.exports_finishRecord closed id).trans exports
  | error error => exact exports

end Loader

/-- The record whose exports the next instruction sets. -/
def Phase.sets? : Phase → Option Nat
  | .running frame _ (.setExports _ :: _) => some frame.record
  | _ => none

/-- An instruction changes the exports of no record but the one it sets. -/
theorem Effect.exports
    {frame : Frame}
    {exports : Value}
    {first : Instr}
    {before after : Loader}
    {result : Except BodyError Value}
    (effect : Effect frame exports before first result after)
    {id : Nat}
    {value : Value}
    (holds : before.Exports id value)
    (rest : Script)
    (other : (Phase.running frame exports (first :: rest)).sets? ≠ some id) :
    after.Exports id value := by
  cases effect with
  | setExports expr =>
      have evaluated :
          (before.evalIn frame exports expr).2.Exports id value := holds
      refine evaluated.setExports ?_ _
      rintro rfl
      exact other rfl
  | _ => exact holds

namespace Moment

/-! ## Records that are made -/

/-- The records that are cached or whose loads are open have been made. -/
structure RecordsMade (moment : Moment) : Prop where
  /-- What the cache names is a record. -/
  cached (key : List Component) (id : Nat) :
    moment.loader.cache[key]? = some id → (moment.loader.mark? id).isSome = true
  /-- So is the record of each open load. -/
  opened :
    ∀ load ∈ moment.openLoads, (moment.loader.mark? load.record).isSome = true

section Made

variable {moment next : Moment}

theorem RecordsMade.of_keepsLoads
    (made : moment.RecordsMade)
    (openLoads : next.openLoads = moment.openLoads)
    (keeps : moment.loader.KeepsLoads next.loader) : next.RecordsMade where
  cached key id := by
    rw [keeps.cache, keeps.marks]
    exact made.cached key id
  opened load := by
    rw [openLoads, keeps.marks]
    exact made.opened load

/-- Records are made before they are cached, and never unmade. -/
theorem RecordsMade.of_transition
    (made : moment.RecordsMade)
    (transition : Transition moment next) : next.RecordsMade := by
  cases transition with
  | keeps _ _ _ _ openLoads keeps =>
      exact made.of_keepsLoads openLoads keeps.toKeepsLoads
  | starts _ _ _ _ _ openLoads keeps => exact made.of_keepsLoads openLoads keeps
  | opens path phase fresh becomes =>
      subst becomes
      have openLoads := openLoads_become_look phase fresh
      rw [Loader.look_eq_of_fresh fresh] at openLoads ⊢
      have still (id : Nat) (before : (moment.loader.mark? id).isSome = true) :
          ((moment.loader.openRecord
            (moment.loader.resolver.fileSystem.canonicalize path)).2.mark?
              id).isSome = true := by
        rw [Loader.mark?_openRecord]
        split
        · rfl
        · exact before
      constructor
      · intro key id cached
        have cached := (moment.loader.cache_openRecord _ key).symm.trans cached
        split at cached
        · obtain rfl := Option.some.inj cached
          exact (congrArg Option.isSome
            (moment.loader.mark?_openRecord _ _)).trans (by simp)
        · exact still id (made.cached key id cached)
      · rw [openLoads]
        intro load isOpen
        rcases List.mem_cons.mp isOpen with rfl | isOpen
        · exact (congrArg Option.isSome
            (moment.loader.mark?_openRecord _ _)).trans (by simp)
        · exact still _ (made.opened load isOpen)
  | closes id filename outcome phase becomes =>
      subst becomes
      have others : ∀ load ∈ moment.waiting.map Waiting.openLoad,
          (moment.loader.mark? load.record).isSome = true := by
        intro load isOpen
        refine made.opened load ?_
        rw [openLoads_of_closing phase]
        exact List.mem_cons_of_mem _ isOpen
      cases outcome with
      | ok _ =>
          have still (other : Nat)
              (before : (moment.loader.mark? other).isSome = true) :
              ((moment.loader.finishRecord id).mark? other).isSome = true := by
            rw [Loader.mark?_finishRecord]
            split
            · rw [Option.isSome_map]
              exact before
            · exact before
          exact ⟨fun key other cached =>
            still other (made.cached key other cached),
            fun load isOpen => still _ (others load isOpen)⟩
      | error error =>
          refine ⟨fun key other cached => made.cached key other ?_, others⟩
          change (moment.loader.dropRecord filename id).cache[key]? =
            some other at cached
          unfold Loader.dropRecord at cached
          dsimp only at cached
          split at cached
          · rw [Std.TreeMap.getElem?_erase] at cached
            split at cached
            · cases cached
            · exact cached
          · exact cached

/-- A record whose load begins is the newest one. -/
theorem Transition.record_eq_of_opened
    {id : Nat}
    {filename : Path}
    (transition : Transition moment next)
    (opened : next.phase = .opened id filename) :
    id = moment.loader.records.size := by
  cases transition with
  | keeps _ _ noOpening => simp [opened, Phase.opening?] at noOpening
  | starts _ _ _ noOpening => simp [opened, Phase.opening?] at noOpening
  | opens path phase fresh becomes =>
      subst becomes
      rw [Loader.look_eq_of_fresh fresh] at opened
      exact (Phase.opened.inj opened).1.symm
  | closes closed closing outcome phase becomes =>
      subst becomes
      cases outcome with
      | ok _ => cases opened
      | error error => cases opened

/-- By induction on the run, what is cached or open has been made. -/
theorem Run.recordsMade
    {resolver : Resolver}
    {bodies : List (String × Script)}
    {past : List Moment}
    (run : Run (initial (.new resolver bodies)) past moment) :
    moment.RecordsMade := by
  induction run with
  | start =>
      exact ⟨fun key id cached => by simp [Loader.new, initial] at cached,
        nofun⟩
  | next run follows inductionHypothesis =>
      exact inductionHypothesis.of_transition (run.transition follows)

end Made

/-! ## Runs without a change of exports -/

/-- One moment follows another, and neither a body nor an operation sets the
exports of a record in between. -/
inductive LeavesExports (id : Nat) (moment next : Moment) : Prop
  | step : moment.step = some next → moment.phase.sets? ≠ some id →
      LeavesExports id moment next
  | operation (answer : Answer) (operation : Operation) :
      moment.phase = .resting answer →
      begin moment.loader operation = some next →
      (∀ path expr, operation = .setExports path expr →
        moment.loader.cached? path ≠ some id) →
      LeavesExports id moment next

section Leaves

variable {id : Nat} {value : Value} {moment next later : Moment}

/-- Such a moment is a next one of the run. -/
theorem LeavesExports.follows
    (leaves : LeavesExports id moment next) : Next moment next := by
  cases leaves with
  | step stepped _ => exact .step stepped
  | operation answer operation rests begun _ =>
      exact .operation answer operation rests begun

/-- A step that sets other exports at most keeps those of a record whose file
has been read. -/
theorem exports_of_step
    (stepped : moment.step = some next)
    (other : moment.phase.sets? ≠ some id)
    (read : ∀ filename, moment.phase ≠ .opened id filename)
    (exports : moment.loader.Exports id value) :
    next.loader.Exports id value := by
  cases stepped_of_step stepped with
  | request _ requested => exact exports.of_records_eq requested.records
  | look path phase => exact exports.look path
  | start phase started =>
      refine started.exports exports ?_
      rintro rfl
      exact read _ phase
  | instr phase _ _ effect =>
      rw [phase] at other
      exact effect.exports exports _ other
  | close closed filename outcome phase =>
      exact exports.close closed filename outcome
  | resume _ _ resumed => exact exports.of_records_eq resumed.records
  | conclude outcome _ _ =>
      exact exports.of_records_eq
        (moment.loader.records_conclude moment.name outcome)
  | _ => exact exports

/-- An operation begins with the exports as they were, unless it sets them. -/
theorem exports_of_begin
    {loader : Loader}
    {operation : Operation}
    (begun : begin loader operation = some next)
    (other : ∀ path expr, operation = .setExports path expr →
      loader.cached? path ≠ some id)
    (exports : loader.Exports id value) : next.loader.Exports id value := by
  cases begun_of_begin begun with
  | setExports expr cached =>
      refine Loader.Exports.setExports exports ?_ _
      rintro rfl
      exact other _ expr rfl cached
  | _ => exact exports

/-- The exports of a record whose file has been read stay as they are. The
induction is on the moments: a load that begins later is of another record. -/
theorem exports_of_leavesExports
    {resolver : Resolver}
    {bodies : List (String × Script)}
    {past : List Moment}
    (run : Run (initial (.new resolver bodies)) past moment)
    (leaves : Relation.ReflTransGen (LeavesExports id) moment later)
    (read : ∀ filename, moment.phase ≠ .opened id filename)
    (exports : moment.loader.Exports id value) :
    later.loader.Exports id value := by
  have kept :
      (∃ since, Run (initial (.new resolver bodies)) since later) ∧
        (∀ filename, later.phase ≠ .opened id filename) ∧
          later.loader.Exports id value := by
    induction leaves with
    | refl => exact ⟨⟨past, run⟩, read, exports⟩
    | tail _ leaves inductionHypothesis =>
        obtain ⟨⟨since, run⟩, read, exports⟩ := inductionHypothesis
        refine ⟨⟨_, run.next leaves.follows⟩, fun filename opened => ?_, ?_⟩
        · exact exports.lt_size.ne
            ((run.transition leaves.follows).record_eq_of_opened opened)
        · cases leaves with
          | step stepped other =>
              exact exports_of_step stepped other read exports
          | operation answer operation _ begun other =>
              exact exports_of_begin begun other exports
  exact kept.2.2

/-- Steps none of which sets the exports of a record leave them as they are. -/
theorem leavesExports_of_after
    {count : Nat}
    (reaches : moment.after count = some later)
    (other : ∀ earlier < count,
      (moment.after earlier).bind (·.phase.sets?) ≠ some id) :
    Relation.ReflTransGen (LeavesExports id) moment later := by
  induction count generalizing moment with
  | zero =>
      obtain rfl := Option.some.inj reaches
      exact .refl
  | succ count inductionHypothesis =>
      obtain ⟨between, stepped, reaches⟩ := Option.bind_eq_some_iff.mp reaches
      refine .head (.step stepped (other 0 count.succ_pos))
        (inductionHypothesis reaches ?_)
      intro earlier before
      have later := other (earlier + 1) (Nat.succ_lt_succ before)
      rwa [after, stepped, Option.bind_some] at later

end Leaves

/-! ## Requests that are given exports -/

/-- The record whose exports a request is about to be given: it asks for a file
that the record stands for, or the load of the record is complete. -/
def gives? (moment : Moment) : Option Nat :=
  match moment.phase with
  | .loading path => moment.loader.cached? path
  | .closing id _ (.ok _) => some id
  | _ => none

section Gives

variable {id : Nat} {moment : Moment}

theorem gives?_eq_some
    (gives : moment.gives? = some id) :
    (∃ path, moment.phase = .loading path ∧
        moment.loader.cached? path = some id) ∨
      ∃ filename, moment.phase = .closing id filename (.ok ()) := by
  unfold gives? at gives
  split at gives
  next path phase => exact .inl ⟨path, phase, gives⟩
  next other filename _ phase =>
    obtain rfl := Option.some.inj gives
    exact .inr ⟨filename, phase⟩
  next => cases gives

/-- The moment before a module is handed over has its record, with the exports
that are handed over. -/
theorem exports_of_gives?
    (gives : moment.gives? = some id)
    (made : moment.RecordsMade) :
    (∀ filename, moment.phase ≠ .opened id filename) ∧
      moment.loader.Exports id (moment.loader.exportsOf id) := by
  rcases gives?_eq_some gives with ⟨path, phase, cached⟩ | ⟨filename, phase⟩
  · exact ⟨by simp [phase], Loader.exports_exportsOf (made.cached _ id cached)⟩
  · exact ⟨by simp [phase],
      Loader.exports_exportsOf (made.opened _ (mem_openLoads_of_closing phase))⟩

/-- The next moment returns what the record exports now, and no exports change.
For a record that is cached nothing at all happens. -/
theorem step_of_gives?
    (gives : moment.gives? = some id) :
    ∃ next,
      moment.step = some next ∧
        next.phase = .returning (.ok (moment.loader.exportsOf id)) ∧
        next.waiting = moment.waiting ∧
        (∀ other, next.loader.exportsOf other = moment.loader.exportsOf other) ∧
        ∀ path, moment.phase = .loading path → next.loader = moment.loader := by
  rcases gives?_eq_some gives with ⟨path, phase, cached⟩ | ⟨filename, phase⟩
  · have looked : moment.loader.look path =
        (.returning (.ok (moment.loader.exportsOf id)), moment.loader) := by
      rw [Loader.look, cached]
    refine ⟨moment.become (moment.loader.look path), by rw [step, phase], ?_⟩
    rw [looked]
    exact ⟨rfl, rfl, fun _ => rfl, fun _ _ => rfl⟩
  · refine ⟨moment.become (moment.loader.close id filename (.ok ())), by
      rw [step, phase], ?_, rfl, ?_, ?_⟩
    · exact congrArg (fun value => Phase.returning (.ok value))
        (moment.loader.exportsOf_finishRecord id id)
    · exact moment.loader.exportsOf_finishRecord id
    · simp [phase]

/-- What is returned is the value that the waiting body or the operation is
given. -/
theorem step_of_returning
    {value : Value}
    (returns : moment.phase = .returning (.ok value)) :
    ∃ next,
      moment.step = some next ∧
        (moment.waiting = [] → next.phase = .resting (.value value)) ∧
        ∀ body others, moment.waiting = body :: others →
          next.phase = .running body.frame body.exports body.rest ∧
            next.waiting = others ∧
            next.loader.workspace.store[body.name]? = some value := by
  obtain ⟨phase, waiting, name, loader⟩ := moment
  obtain rfl : phase = .returning (.ok value) := returns
  cases waiting with
  | nil =>
      refine ⟨_, rfl, fun _ => ?_, nofun⟩
      cases name <;> rfl
  | cons body others =>
      refine ⟨_, rfl, nofun, fun other rest same => ?_⟩
      obtain ⟨rfl, rfl⟩ := List.cons.inj same
      refine ⟨rfl, rfl, ?_⟩
      exact Std.TreeMap.getElem?_insert_self

end Gives

/-- Whatever the file system is, a request that finds a record in the cache, or
whose load is complete, is given what the record exports at that moment; for a
record from the cache nothing runs, though its own body may still be under
way. As long as no body and no operation sets the exports of the record, all
requests that are given them, however they spell the file, are given one
value. To bind the name `exports` to something else sets no exports. -/
theorem returned_exports_live
    (resolver : Resolver)
    (bodies : List (String × Script)) :
    (∀ past moment id,
      Run (initial (.new resolver bodies)) past moment →
        moment.gives? = some id →
        (∃ next given,
          moment.step = some next ∧ next.step = some given ∧
            next.phase = .returning (.ok (moment.loader.exportsOf id)) ∧
            next.loader.exportsOf id = moment.loader.exportsOf id ∧
            (∀ path, moment.phase = .loading path →
              next.loader = moment.loader) ∧
            (moment.waiting = [] →
              given.phase = .resting (.value (moment.loader.exportsOf id))) ∧
            ∀ body others, moment.waiting = body :: others →
              given.phase = .running body.frame body.exports body.rest ∧
                given.waiting = others ∧
                given.loader.workspace.store[body.name]? =
                  some (moment.loader.exportsOf id)) ∧
          ∀ later, Relation.ReflTransGen (LeavesExports id) moment later →
            later.loader.exportsOf id = moment.loader.exportsOf id ∧
              (later.gives? = some id → ∃ next,
                later.step = some next ∧
                  next.phase = .returning (.ok (moment.loader.exportsOf id)))) ∧
      ∀ moment next frame exports expr rest,
        moment.phase = .running frame exports (.rebind expr :: rest) →
          moment.step = some next →
            ∀ id, LeavesExports id moment next ∧
              next.loader.exportsOf id = moment.loader.exportsOf id := by
  refine ⟨fun past moment id run gives => ⟨?_, fun later leaves => ?_⟩, ?_⟩
  · obtain ⟨next, stepped, returns, waiting, exports, quiet⟩ :=
      step_of_gives? gives
    obtain ⟨given, handed, answers, resumes⟩ := step_of_returning returns
    rw [waiting] at answers resumes
    exact ⟨next, given, stepped, handed, returns, exports id, quiet,
      answers, resumes⟩
  · obtain ⟨read, exports⟩ := exports_of_gives? gives run.recordsMade
    have same : later.loader.exportsOf id = moment.loader.exportsOf id :=
      (exports_of_leavesExports run leaves read exports).exportsOf_eq
    refine ⟨same, fun givesLater => ?_⟩
    obtain ⟨next, stepped, returns, _⟩ := step_of_gives? givesLater
    exact ⟨next, stepped, same ▸ returns⟩
  · intro moment next frame exports expr rest phase stepped id
    refine ⟨.step stepped (by simp [phase, Phase.sets?]), ?_⟩
    obtain ⟨_, waiting, name, loader⟩ := moment
    subst phase
    obtain rfl := Option.some.inj stepped
    rfl

/-- Two modules that ask for each other and bind `exports` to something else. -/
def rebindingTree : FileTree :=
  (FileTree.empty.insertFile (.ofString "/p/a.js") "a").insertFile
    (.ofString "/p/b.js") "b"

def rebindingBodies : List (String × Script) :=
  [("a", [.rebind .newObject, .require "./b.js" "b", .rebind .newObject]),
    ("b", [.require "./a.js" "a", .rebind .newObject])]

/-- The second module is given the exports of the first one while its body is
under way, and the operation is given the same value once it is over. -/
theorem returned_exports_live_rebindingTree :
    ∃ (past : List Moment) (moment later next : Moment),
      Run (initial (.new ⟨rebindingTree.toFileSystem, .standard⟩
          rebindingBodies)) past moment ∧
        moment.gives? = some 0 ∧
        moment.openLoads.map (·.filename) =
          [.ofString "/p/b.js", .ofString "/p/a.js"] ∧
        later.gives? = some 0 ∧
        later.openLoads.map (·.filename) = [.ofString "/p/a.js"] ∧
        later.step = some next ∧
        next.phase = .returning (.ok (moment.loader.exportsOf 0)) := by
  let first : Moment := ⟨.requesting (.ofString "/p") "./a" none, [], none,
    .new ⟨rebindingTree.toFileSystem, .standard⟩ rebindingBodies⟩
  have begins : Run (initial first.loader) [initial first.loader] first :=
    .next .start
      (.operation .done (.requireFrom (.ofString "/p") "./a" none) rfl rfl)
  have early : (first.after 10).map (fun moment =>
      (moment.gives?, moment.openLoads.map (·.filename))) =
        some (some 0, [.ofString "/p/b.js", .ofString "/p/a.js"]) := by
    decide +kernel
  have late : ((first.after 10).bind (after 8)).map (fun moment =>
      (moment.gives?, moment.openLoads.map (·.filename))) =
        some (some 0, [.ofString "/p/a.js"]) := by
    decide +kernel
  have quiet : ∀ earlier < 8,
      (((first.after 10).bind (after earlier)).bind (·.phase.sets?)) ≠
        some 0 := by
    decide +kernel
  obtain ⟨moment, reached, shape⟩ := Option.map_eq_some_iff.mp early
  obtain ⟨gives, isOpen⟩ := Prod.mk.inj shape
  rw [reached, Option.bind_some] at late
  simp only [reached, Option.bind_some] at quiet
  obtain ⟨later, reachedLater, laterShape⟩ := Option.map_eq_some_iff.mp late
  obtain ⟨givesLater, isOpenLater⟩ := Prod.mk.inj laterShape
  obtain ⟨past, run⟩ := begins.ofAfter reached
  obtain ⟨next, stepped, returns⟩ :=
    (((returned_exports_live _ _).1 past moment 0 run gives).2 later
      (leavesExports_of_after reachedLater quiet)).2 givesLater
  exact ⟨past, moment, later, next, run, gives, isOpen, givesLater, isOpenLater,
    stepped, returns⟩

end Moment
end CommonJs
