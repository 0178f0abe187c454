import CommonJs.Proofs.Loading.Once
import CommonJs.Proofs.Loading.Trace

/-!
# How a failure leaves the call stack

An error is raised at one moment: no file is found, a file cannot be read or
holds malformed data, or a body stops. From then on it is handed from load to
load as it is. Each load that it passes ends, and its record leaves the cache;
a body that catches it goes on, and the error is gone. So the error that an
operation answers was raised below bodies none of which catches it, and none
of their modules is cached any more.
-/

namespace CommonJs

/-- The file of the module that failed itself. No module failed where there is
none. -/
def LoadError.file? : LoadError → Option Path
  | .notFound .. => none
  | .unreadable path _ => some path
  | .malformedJson path => some path
  | .evaluation path _ => some path

/-- The error that is under way, or that was answered. -/
def Phase.error? : Phase → Option LoadError
  | .closing _ _ (.error error) => some error
  | .returning (.error error) => some error
  | .resting (.error error) => some error
  | _ => none

/-- An instruction that is no request fails for a reason of its own, or there
is no module to ask for. -/
theorem Effect.file?_eq_none
    {frame : Frame}
    {exports : Value}
    {first : Instr}
    {before after : Loader}
    {error : LoadError}
    (effect :
      Effect frame exports before first (.error (.uncaught error)) after) :
    error.file? = none := by
  generalize ended : Except.error (BodyError.uncaught error) = result at effect
  cases effect with
  | change change => split at ended <;> cases ended
  | @unresolved _ _ found _ failure _ located =>
      obtain rfl := BodyError.uncaught.inj (Except.error.inj ended)
      unfold ResolveResult.located at located
      split at located
      · cases located
      · cases located
      · cases located
        rfl
  | _ => cases ended

namespace Moment

/-! ## Steps that lead to an error -/

/-- The body of a file stops with a failure of its own: the file names no
body, or an instruction fails. -/
def Stops (moment : Moment) (filename : Path) (failure : Failure) : Prop :=
  (∃ id source,
    moment.phase = .opened id filename ∧
      moment.loader.resolver.fileSystem.read filename = .ok source ∧
        moment.loader.bodies.lookup source = none ∧
          failure = .malformed ("unknown body '" ++ source ++ "'")) ∨
    ∃ frame exports first rest after,
      moment.phase = .running frame exports (first :: rest) ∧
        frame.filename = filename ∧
          first.request? = none ∧
            (Running.instr (fun _ => Loading.exhausted) frame exports first).run
                moment.loader =
              some (.error (.stopped failure), after)

/-- An error that is raised now is about no module, or about the one whose
load is the innermost, and a failure of its body is the body's own. -/
def Blames (moment : Moment) (error : LoadError) : Prop :=
  error.file? = none ∨
    ∃ id filename,
      moment.phase.openLoad? = some ⟨id, filename⟩ ∧
        error.file? = some filename ∧
          ∀ failure, error = .evaluation filename failure →
            moment.Stops filename failure

/-- How a step leads to a moment with an error. -/
inductive Erring (moment next : Moment) (error : LoadError) : Prop
  /-- The error is raised. -/
  | raises
      (noError : moment.phase.error? = none)
      (blames : moment.Blames error)
      (openLoads : next.openLoads = moment.openLoads)
      (waiting : next.waiting = moment.waiting)
  /-- The error ends a load. -/
  | closes
      (id : Nat)
      (filename : Path)
      (phase : moment.phase = .closing id filename (.error error))
      (becomes : next =
        moment.become
          (.returning (.error error), moment.loader.dropRecord filename id))
  /-- The error comes to a body that does not catch it. -/
  | passes
      (waiting : Waiting)
      (others : List Waiting)
      (phase : moment.phase = .returning (.error error))
      (waits : moment.waiting = waiting :: others)
      (uncaught : waiting.catches = false)
      (becomes : next =
        ⟨.closing waiting.frame.record waiting.frame.filename
          (.error error), others, moment.name, moment.loader⟩)
  /-- No body is left, and the error is the answer. -/
  | answers
      (phase : moment.phase = .returning (.error error))
      (noneWait : moment.waiting = [])
      (becomes : next = ⟨.resting (.error error), [], none, moment.loader⟩)

variable {moment next : Moment} {error : LoadError}

/-- To read the file of a new record fails because of that file. -/
theorem blames_of_started
    {id : Nat}
    {filename : Path}
    {after : Phase × Loader}
    (phase : moment.phase = .opened id filename)
    (started : moment.loader.Started id filename after)
    (carries : after.1.error? = some error) : moment.Blames error := by
  refine Or.inr ⟨id, filename, by simp [phase, Phase.openLoad?], ?_⟩
  cases started with
  | unreadable _ =>
      cases carries
      refine ⟨rfl, ?_⟩
      rintro failure ⟨⟩
  | malformed _ _ =>
      cases carries
      refine ⟨rfl, ?_⟩
      rintro failure ⟨⟩
  | data json _ _ => cases carries
  | @unknown source contents _ named =>
      cases carries
      refine ⟨rfl, fun failure isEvaluation =>
        Or.inl ⟨id, source, phase, contents, named, ?_⟩⟩
      exact (LoadError.evaluation.inj isEvaluation).2.symm
  | body => cases carries

/-- An instruction that is no request fails because of its own file. -/
theorem blames_of_instr
    {frame : Frame}
    {exports : Value}
    {first : Instr}
    {rest : Script}
    {result : Except BodyError Value}
    {after : Loader}
    (phase : moment.phase = .running frame exports (first :: rest))
    (noRequest : first.request? = none)
    (ran : (Running.instr (fun _ => Loading.exhausted) frame exports first).run
      moment.loader =
      some (result, after))
    (carries : (frame.next rest result).error? = some error) :
    moment.Blames error := by
  cases result with
  | ok value => cases carries
  | error ended =>
      cases carries
      cases ended with
      | uncaught failure =>
          exact Or.inl (effect_of_run noRequest ran).file?_eq_none
      | stopped failure =>
          refine Or.inr ⟨frame.record, frame.filename,
            by simp [phase, Phase.openLoad?], rfl, ?_⟩
          intro other isEvaluation
          obtain rfl := (LoadError.evaluation.inj isEvaluation).2
          exact Or.inr
            ⟨frame, exports, first, rest, after, phase, rfl, noRequest, ran⟩

/-- A request fails because no file is found. -/
theorem blames_of_requested
    {context : Path}
    {specifier : String}
    {origin : Option Path}
    {after : Phase × Loader}
    (requested : moment.loader.Requested context specifier origin after)
    (carries : after.1.error? = some error) : moment.Blames error := by
  cases requested with
  | path _ _ => cases carries
  | stub _ _ => cases carries
  | unresolved _ _ =>
      cases carries
      exact Or.inl rfl

/-- A step that carries an error has raised it or got it. -/
theorem erring_of_step
    (stepped : moment.step = some next)
    (carries : next.phase.error? = some error) : Erring moment next error := by
  cases stepped_of_step stepped with
  | request phase requested =>
      refine .raises (by rw [phase]; rfl)
        (blames_of_requested requested carries) (openLoads_become ?_) rfl
      rw [requested.spec.1, phase]
      rfl
  | look path phase =>
      cases cached : moment.loader.cached? path with
      | none => simp [become, Loader.look, cached, Phase.error?] at carries
      | some id => simp [become, Loader.look, cached, Phase.error?] at carries
  | start phase started =>
      refine .raises (by rw [phase]; rfl)
        (blames_of_started phase started carries) (openLoads_become ?_) rfl
      rw [started.spec.1, phase]
      rfl
  | finish frame exports phase => cases carries
  | ask phase requests => cases carries
  | instr phase noRequest ran _ =>
      refine .raises (by rw [phase]; rfl)
        (blames_of_instr phase noRequest ran carries) (openLoads_become ?_) rfl
      rw [Frame.openLoad?_next, phase]
      rfl
  | close id filename outcome phase =>
      cases outcome with
      | ok _ => cases carries
      | error failure =>
          cases carries
          exact .closes id filename phase rfl
  | resume phase waits resumed =>
      cases resumed with
      | given value => cases carries
      | caught failure _ => cases carries
      | uncaught failure uncaught =>
          cases carries
          exact .passes _ _ phase waits uncaught rfl
  | conclude outcome phase noneWait =>
      cases outcome with
      | ok value => cases carries
      | error failure =>
          cases carries
          exact .answers phase noneWait rfl

/-! ## From where an error is raised to where it is -/

/-- The error comes up in this moment's step. -/
def Raises (moment : Moment) (error : LoadError) : Prop :=
  moment.phase.error? = none ∧ ∃ next, moment.step = some next ∧
    next.phase.error? = some error

theorem Raises.blames (raises : moment.Raises error) : moment.Blames error := by
  obtain ⟨noError, next, stepped, carries⟩ := raises
  cases erring_of_step stepped carries with
  | raises _ blames => exact blames
  | closes id filename phase => simp [phase, Phase.error?] at noError
  | passes waiting others phase => simp [phase, Phase.error?] at noError
  | answers phase => simp [phase, Phase.error?] at noError

/-- What lies between the moment that raised an error and a later one that
has it. -/
structure Unwound
    (error : LoadError)
    (origin : Moment)
    (since : List Moment)
    (moment : Moment) :
    Prop where
  /-- The error has not changed. -/
  carries : ∀ between ∈ since, between.phase.error? = some error
  /-- The bodies that do not wait any more did not catch it. -/
  uncaught : ∀ waiting ∈ origin.waiting, waiting ∈ moment.waiting ∨
    waiting.catches = false
  /-- The loads that are not open any more left no record. -/
  dropped : ∀ load ∈ origin.openLoads,
    load ∈ moment.openLoads ∨
      moment.loader.cache[load.filename.components]? = none

namespace Unwound

variable {origin : Moment} {since : List Moment}

/-- An error that ends a load takes its record away. -/
theorem closes
    (unwound : Unwound error origin since moment)
    (sound : moment.StackSound)
    {id : Nat}
    {filename : Path}
    (phase : moment.phase = .closing id filename (.error error)) :
    Unwound error origin (moment :: since)
      (moment.become
        (.returning (.error error), moment.loader.dropRecord filename id)) := by
  have own := sound.cached _ (mem_openLoads_of_closing phase)
  refine ⟨?_, unwound.uncaught, ?_⟩
  · rintro between isBetween
    rcases List.mem_cons.mp isBetween with rfl | isBetween
    · rw [phase]
      rfl
    · exact unwound.carries between isBetween
  · intro load wasOpen
    have cache := Loader.cache_dropRecord own load.filename.components
    rcases unwound.dropped load wasOpen with isOpen | uncached
    · rw [openLoads_of_closing phase] at isOpen
      rcases List.mem_cons.mp isOpen with rfl | isOpen
      · exact Or.inr (cache.trans (if_pos rfl))
      · exact Or.inl isOpen
    · right
      refine cache.trans ?_
      rw [uncached, ite_self]

/-- An error that is handed on changes no load. -/
theorem of_returning
    (unwound : Unwound error origin since moment)
    (phase : moment.phase = .returning (.error error))
    (uncaught : ∀ waiting ∈ moment.waiting,
      waiting ∈ next.waiting ∨ waiting.catches = false)
    (openLoads : next.openLoads = moment.openLoads)
    (sameCache : next.loader.cache = moment.loader.cache) :
    Unwound error origin (moment :: since) next := by
  refine ⟨?_, ?_, ?_⟩
  · rintro between isBetween
    rcases List.mem_cons.mp isBetween with rfl | isBetween
    · rw [phase]
      rfl
    · exact unwound.carries between isBetween
  · intro waiting waited
    rcases unwound.uncaught waiting waited with waits | uncaughtBefore
    · exact uncaught waiting waits
    · exact Or.inr uncaughtBefore
  · rw [openLoads, sameCache]
    exact unwound.dropped

end Unwound

variable {first : Moment} {past : List Moment}

/-- An error that is under way was raised before, and has come from there as
it is. -/
theorem Trace.unwound
    (trace : Trace first past moment)
    (noError : first.phase.error? = none)
    (sound : ∀ past moment, Trace first past moment → moment.StackSound)
    (carries : moment.phase.error? = some error) :
    ∃ since origin earlier,
      past = since ++ origin :: earlier ∧
        origin.Raises error ∧ Unwound error origin since moment := by
  induction trace with
  | start =>
      rw [noError] at carries
      cases carries
  | @step past moment next trace stepped inductionHypothesis =>
      cases erring_of_step stepped carries with
      | raises noErrorBefore blames openLoads waiting =>
          refine ⟨[], moment, past, rfl,
            ⟨noErrorBefore, next, stepped, carries⟩, ?_⟩
          refine
            ⟨by simp, fun body waits => Or.inl ?_, fun load isOpen => Or.inl ?_⟩
          · rw [waiting]
            exact waits
          · rw [openLoads]
            exact isOpen
      | closes id filename phase becomes =>
          subst becomes
          obtain ⟨since, origin, earlier, rfl, raises, unwound⟩ :=
            inductionHypothesis (by simp [phase, Phase.error?])
          exact ⟨moment :: since, origin, earlier, rfl, raises,
            unwound.closes (sound _ _ trace) phase⟩
      | passes waiting others phase waits uncaught becomes =>
          subst becomes
          obtain ⟨since, origin, earlier, rfl, raises, unwound⟩ :=
            inductionHypothesis (by simp [phase, Phase.error?])
          refine ⟨moment :: since, origin, earlier, rfl, raises,
            unwound.of_returning phase ?_ ?_ rfl⟩
          · rw [waits]
            intro body waits
            rcases List.mem_cons.mp waits with rfl | waits
            · exact Or.inr uncaught
            · exact Or.inl waits
          · simp only [openLoads, phase, waits]
            rfl
      | answers phase noneWait becomes =>
          subst becomes
          obtain ⟨since, origin, earlier, rfl, raises, unwound⟩ :=
            inductionHypothesis (by simp [phase, Phase.error?])
          refine ⟨moment :: since, origin, earlier, rfl, raises,
            unwound.of_returning phase ?_ ?_ rfl⟩
          · simp [noneWait]
          · simp only [openLoads, phase, noneWait]
            rfl

/-! ## Requests from outside -/

/-- An operation that loads begins without an error and without open loads,
with the cache as it is. -/
theorem begin_of_loads
    {loader : Loader}
    {operation : Operation}
    (loads : operation.loads = true)
    (begun : begin loader operation = some first) :
    first.phase.error? = none ∧ first.openLoads = [] ∧
      first.loader.cache = loader.cache := by
  cases begun_of_begin begun with
  | requireFrom context specifier name => exact ⟨rfl, rfl, rfl⟩
  | requireModule path name => exact ⟨rfl, rfl, rfl⟩
  | requireNothing name => exact ⟨rfl, rfl, rfl⟩
  | _ => cases loads

/-- Whatever a loader of a tree did before, and whatever it answers to a
request for a module, the moments of the request are such that:

* a record is cached afterwards if it was cached before or if its load was
  completed meanwhile, and each load that ended had opened a record of its own;
* an answered error was raised at one of them, has been under way from there
  on as it is, and no body that waited there catches it. An error about a
  module is about the one whose load was the innermost there, and none of the
  modules that were loading there is cached afterwards;
* where the failure of a body is under way, to be answered or to be caught, it
  is the failure with which the body of that file itself stopped. -/
theorem require_caches_completed_and_unwinds_error
    {tree : FileTree}
    (built : tree.Built)
    (config : ResolverConfig)
    (bodies : List (String × Script))
    {loader after : Loader}
    {operation : Operation}
    {answer : Answer}
    (reaches : Loader.Reaches (.new ⟨tree.toFileSystem, config⟩ bodies) loader)
    (loads : operation.loads = true)
    (performed : loader.perform operation = some (answer, after)) :
    ∃ first past,
      begin loader operation = some first ∧
        Trace first past ⟨.resting answer, [], none, after⟩ ∧
          (∀ key id, after.cache[key]? = some id ↔
            loader.cache[key]? = some id ∨ Completed past key id) ∧
          (∀ closed ∈ past, ∀ id filename outcome,
            closed.phase = .closing id filename outcome →
              ∃ opening ∈ past, opening.phase = .opened id filename) ∧
          (∀ error, answer = .error error →
            ∃ since origin earlier,
              past = since ++ origin :: earlier ∧
                origin.Raises error ∧
                  (∀ between ∈ since, between.phase.error? = some error) ∧
                  (∀ waiting ∈ origin.waiting, waiting.catches = false) ∧
                  (∀ path, error.file? = some path →
                    ∃ id, origin.phase.openLoad? = some ⟨id, path⟩) ∧
                  ∀ load ∈ origin.openLoads,
                    after.cached? load.filename = none) ∧
          ∀ moment ∈ past, ∀ path failure,
            moment.phase.error? = some (.evaluation path failure) →
              ∃ origin ∈ past, origin.Stops path failure := by
  obtain ⟨first, past, begun, trace⟩ := trace_of_perform performed
  obtain ⟨noError, noLoads, sameCache⟩ := begin_of_loads loads begun
  obtain ⟨before, rested, begins⟩ := reaches.run
  have begins := begins.next (.operation rested operation rfl begun)
  have run : ∀ past moment, Trace first past moment → Run _ _ moment :=
    fun past moment trace => trace.run begins
  have sound : ∀ past moment, Trace first past moment → moment.StackSound :=
    fun past moment trace => (run past moment trace).stackSound
      (.initial ⟨tree.toFileSystem, config⟩ bodies) built.canonical
  have accounted := trace.accounted (.initial noLoads sameCache) sound
  refine ⟨first, past, begun, trace, ?_, accounted.began, ?_, ?_⟩
  · intro key id
    refine (accounted.cached_iff key id).trans ?_
    simp [openLoads, Phase.openLoad?]
  · rintro error rfl
    obtain ⟨since, origin, earlier, rfl, raises, unwound⟩ :=
      trace.unwound noError sound rfl
    refine ⟨since, origin, earlier, rfl, raises, unwound.carries, ?_, ?_, ?_⟩
    · intro waiting waits
      exact (unwound.uncaught waiting waits).resolve_left (by simp)
    · intro path failed
      rcases raises.blames with noModule | ⟨id, filename, isOpen, failedHere, _⟩
      · cases noModule.symm.trans failed
      · obtain rfl := Option.some.inj (failedHere.symm.trans failed)
        exact ⟨id, isOpen⟩
    · intro load isOpen
      have isPast : origin ∈ since ++ origin :: earlier := by simp
      obtain ⟨prior, priorTrace, _⟩ := trace.of_mem isPast
      have canonical := (sound _ _ priorTrace).canonical load isOpen
      rw [(run _ _ priorTrace).fileSystem_eq] at canonical
      rw [(run _ _ trace).cached?_eq, canonical]
      exact (unwound.dropped load isOpen).resolve_left
        (by simp [openLoads, Phase.openLoad?])
  · intro moment isPast path failure carries
    obtain ⟨prior, priorTrace, included⟩ := trace.of_mem isPast
    obtain ⟨since, origin, earlier, rfl, raises, _⟩ :=
      priorTrace.unwound noError sound carries
    refine ⟨origin, included (by simp), ?_⟩
    rcases raises.blames with noModule | ⟨id, filename, _, failedHere, stops⟩
    · cases noModule
    · obtain rfl := Option.some.inj failedHere
      exact stops failure rfl

/-- A module whose failure is caught between one that it asked for and the
next request, and a chain of two that is not caught. -/
def chainTree : FileTree :=
  ((((FileTree.empty.insertFile (.ofString "/p/a.js") "a").insertFile
    (.ofString "/p/b.js") "b").insertFile (.ofString "/p/c.js") "c").insertFile
    (.ofString "/p/d.js") "d").insertFile (.ofString "/p/e.js") "e"

def chainBodies : List (String × Script) :=
  [("a", [.tryRequire "./b.js" "b", .require "./c.js" "c"]),
    ("b", [.require "./d.js" "d", .throwText "caught"]),
    ("c", [.require "./d.js" "d", .require "./e.js" "e"]),
    ("d", []),
    ("e", [.throwText "stop"])]

theorem require_caches_completed_and_unwinds_error_chainTree :
    ∃ after first past,
      Trace first past
          ⟨.resting (.error (.evaluation (.ofString "/p/e.js")
            (.thrown "stop"))), [], none, after⟩ ∧
        after.cachedRecords.map (·.filename) = [.ofString "/p/d.js"] ∧
          (∃ id, Completed past (Path.ofString "/p/d.js").components id) ∧
            ∃ origin ∈ past, ∃ id,
              origin.phase.openLoad? = some ⟨id, .ofString "/p/e.js"⟩ ∧
                ∀ waiting ∈ origin.waiting, waiting.catches = false := by
  have built : chainTree.Built :=
    .insertFile _ _ (.insertFile _ _
      (.insertFile _ _ (.insertFile _ _ (.insertFile _ _ .empty))))
  let loader : Loader := .new ⟨chainTree.toFileSystem, .standard⟩ chainBodies
  have performed :
      (loader.perform (.requireFrom (.ofString "/p") "./a" none)).map
        (fun outcome =>
          ((Phase.resting outcome.1).error?,
          outcome.2.cachedRecords.map (·.filename),
          (outcome.2.cache[(Path.ofString "/p/d.js").components]?).isSome)) =
        some (some (.evaluation (.ofString "/p/e.js") (.thrown "stop")),
          [.ofString "/p/d.js"], true) := by
    decide +kernel
  obtain ⟨⟨answer, after⟩, performed, shape⟩ :=
    Option.map_eq_some_iff.mp performed
  obtain ⟨failed, files, kept⟩ : _ ∧ _ ∧ _ := by
    simpa only [Prod.mk.injEq] using shape
  obtain rfl :
      answer = .error (.evaluation (.ofString "/p/e.js") (.thrown "stop")) := by
    cases answer with
    | error error => exact congrArg Answer.error (Option.some.inj failed)
    | _ => cases failed
  obtain ⟨id, cached⟩ := Option.isSome_iff_exists.mp kept
  obtain ⟨first, past, _, trace, grows, _, unwinds, _⟩ :=
    require_caches_completed_and_unwinds_error built .standard chainBodies
      .start rfl performed
  obtain ⟨since, origin, earlier, isPast, _, _, uncaught, failing, _⟩ :=
    unwinds _ rfl
  obtain ⟨failed, isOpen⟩ := failing _ rfl
  refine ⟨after, first, past, trace, files, ⟨id, ?_⟩, origin, by
    simp [isPast], failed, isOpen, uncaught⟩
  exact ((grows _ id).mp cached).resolve_left (by simp [Loader.new])

end Moment
end CommonJs
