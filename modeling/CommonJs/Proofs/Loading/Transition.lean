import CommonJs.Proofs.Loading.Instructions

/-!
# What a step does to the open loads

A record enters the cache when its load begins and is completed or taken away
when its load ends. Everything else that a body or an operation does leaves
the cache, the files of the records and their completeness as they are, and
starts no body. So there are four ways from one moment to the next: the loads
stay as they are, one begins, the body of the innermost one is started, or
the innermost one ends.
-/

namespace CommonJs

/-- Whether an event is the start of the body of a file. -/
def Event.starts (filename : Path) : Event → Bool
  | run other _ => other = filename
  | _ => false

namespace Loader

/-- How often the body of a file has been started. -/
def starts (loader : Loader) (filename : Path) : Nat :=
  loader.events.countP (·.starts filename)

/-- The file of a record, and whether the record is complete. -/
def mark? (loader : Loader) (id : Nat) : Option (Path × Bool) :=
  (loader.record? id).map fun record => (record.filename, record.loaded)

/-- The loads of a loader are as they were. -/
structure KeepsLoads (before after : Loader) : Prop where
  /-- The file system stays. -/
  fileSystem : after.resolver.fileSystem = before.resolver.fileSystem
  /-- The cache stays. -/
  cache : after.cache = before.cache
  /-- The list of loads stays. -/
  loading : after.loading = before.loading
  /-- Every record keeps its file and whether it is loaded. -/
  marks : ∀ id, after.mark? id = before.mark? id

/-- The loads of a loader are as they were, and no body was started. -/
structure Keeps
    (before after : Loader) : Prop extends KeepsLoads before after where
  /-- No body of any file has been started. -/
  starts : ∀ filename, after.starts filename = before.starts filename

namespace KeepsLoads

variable {first second third : Loader}

theorem refl (loader : Loader) : loader.KeepsLoads loader :=
  ⟨rfl, rfl, rfl, fun _ => rfl⟩

theorem trans
    (earlier : first.KeepsLoads second)
    (later : second.KeepsLoads third) : first.KeepsLoads third where
  fileSystem := later.fileSystem.trans earlier.fileSystem
  cache := later.cache.trans earlier.cache
  loading := later.loading.trans earlier.loading
  marks id := (later.marks id).trans (earlier.marks id)

end KeepsLoads

namespace Keeps

variable {first second third : Loader}

theorem refl (loader : Loader) : loader.Keeps loader :=
  ⟨.refl loader, fun _ => rfl⟩

theorem trans
    (earlier : first.Keeps second)
    (later : second.Keeps third) : first.Keeps third :=
  ⟨earlier.toKeepsLoads.trans later.toKeepsLoads, fun filename =>
    (later.starts filename).trans (earlier.starts filename)⟩

/-- What a loader remembers, its settings and its variables are not about
loads. -/
theorem of_eq
    (fileSystem : second.resolver.fileSystem = first.resolver.fileSystem)
    (records : second.records = first.records)
    (cache : second.cache = first.cache)
    (loading : second.loading = first.loading)
    (events : second.events = first.events) : first.Keeps second where
  fileSystem := fileSystem
  cache := cache
  loading := loading
  marks id := by simp only [mark?, record?, records]
  starts filename := by simp only [Loader.starts, events]

end Keeps

theorem mark?_setExports (loader : Loader) (id other : Nat) (value : Value) :
    (loader.setExports id value).mark? other = loader.mark? other := by
  by_cases same : id = other
  · subst same
    simp only [mark?, record?, setExports, Array.getElem?_modify, if_true,
      Option.map_map]
    rfl
  · simp [mark?, record?, setExports, Array.getElem?_modify, same]

/-- To set exports starts nothing. -/
theorem keeps_setExports (loader : Loader) (id : Nat) (value : Value) :
    loader.Keeps (loader.setExports id value) :=
  ⟨⟨rfl, rfl, rfl, fun other => loader.mark?_setExports id other value⟩,
    fun _ => rfl⟩

/-- Nor does it start anything to set a variable. -/
theorem keeps_assign (loader : Loader) (name : String) (value : Value) :
    loader.Keeps (loader.assign name value) :=
  .of_eq rfl rfl rfl rfl rfl

/-- Nor to make an object. -/
theorem keeps_newObject (loader : Loader) : loader.Keeps loader.newObject.2 :=
  .of_eq rfl rfl rfl rfl rfl

/-- An event that is a start adds one to the starts of its file. -/
theorem starts_emit (loader : Loader) (event : Event) (filename : Path) :
    (loader.emit event).starts filename =
      loader.starts filename + if event.starts filename then 1 else 0 := by
  simp [starts, emit, Array.countP_push]

/-- To note an event changes no load. -/
theorem keepsLoads_emit (loader : Loader) (event : Event) :
    loader.KeepsLoads (loader.emit event) :=
  ⟨rfl, rfl, rfl, fun _ => rfl⟩

/-- Other events start nothing. -/
theorem keeps_emit
    (loader : Loader)
    {event : Event}
    (starts : ∀ filename, event.starts filename = false) :
    loader.Keeps (loader.emit event) :=
  ⟨loader.keepsLoads_emit event, fun filename => by simp [starts_emit, starts]⟩

end Loader

/-! ## Instructions that ask for no module -/

/-- The instructions that are no request leave the loads as they are. -/
theorem Effect.keeps
    {frame : Frame}
    {exports : Value}
    {first : Instr}
    {before after : Loader}
    {result : Except BodyError Value}
    (effect : Effect frame exports before first result after) :
    before.Keeps after := by
  have evaluates (expr : Expr) :
      before.Keeps (before.evalIn frame exports expr).2 :=
    .of_eq rfl rfl rfl rfl rfl
  have remembers (memo : DescriptorMemo) : before.Keeps { before with memo } :=
    .of_eq rfl rfl rfl rfl rfl
  cases effect with
  | change change => exact .of_eq rfl rfl rfl rfl rfl
  | resolve name _ _ => exact (remembers _).trans (Loader.keeps_assign _ _ _)
  | unresolved name _ _ => exact remembers _
  | @tryResolve _ _ _ located =>
      refine (remembers _).trans (Loader.keeps_emit _ ?_)
      cases located with
      | ok path => exact fun _ => rfl
      | error error => exact fun _ => rfl
  | setExports expr =>
      exact (evaluates expr).trans (Loader.keeps_setExports _ _ _)
  | rebind expr => exact evaluates expr
  | log expr => exact (evaluates expr).trans (Loader.keeps_emit _ fun _ => rfl)
  | throwValue expr => exact evaluates expr
  | stop failure => exact .refl before
  | goOn => exact .refl before

/-! ## Parts of a step -/

/-- The file whose record was just made. -/
def Phase.opening? : Phase → Option Path
  | .opened _ filename => some filename
  | _ => none

/-- The file whose load ends with an error. -/
def Phase.failing? : Phase → Option Path
  | .closing _ filename (.error _) => some filename
  | _ => none

theorem Phase.opening?_eq_none_of_openLoad?
    {phase : Phase}
    (noLoad : phase.openLoad? = none) : phase.opening? = none := by
  cases phase with
  | opened id filename => cases noLoad
  | _ => rfl

theorem Phase.ne_resting_of_openLoad?
    {phase : Phase}
    {load : OpenLoad}
    (isOpen : phase.openLoad? = some load)
    (answer : Answer) : phase ≠ .resting answer := by
  rintro rfl
  cases isOpen

/-- A body stays open until its record is closed. -/
@[simp] theorem Frame.openLoad?_next
    (frame : Frame)
    (rest : Script)
    (result : Except BodyError Value) :
    (frame.next rest result).openLoad? =
      some ⟨frame.record, frame.filename⟩ := by
  cases result with
  | ok exports => rfl
  | error error => rfl

@[simp] theorem Frame.opening?_next
    (frame : Frame)
    (rest : Script)
    (result : Except BodyError Value) :
    (frame.next rest result).opening? = none := by
  cases result with
  | ok exports => rfl
  | error error => rfl

/-- Whether an operation may load files. -/
def Operation.loads : Operation → Bool
  | requireFrom .. => true
  | requireModule .. => true
  | _ => false

namespace Loader

/-- Whether a file can be read and holds a body. -/
def holdsBody (loader : Loader) (filename : Path) : Bool :=
  (loader.resolver.fileSystem.read filename).isOk && !Loading.isData filename

/-- A file that is not cached gets a record of its own. -/
theorem look_eq_of_fresh
    {loader : Loader}
    {path : Path}
    (fresh : loader.cached? path = none) :
    loader.look path =
      (.opened loader.records.size
        (loader.resolver.fileSystem.canonicalize path),
        (loader.openRecord
          (loader.resolver.fileSystem.canonicalize path)).2) := by
  simp only [look, fresh]
  rfl

/-- A request opens no load and starts nothing. -/
theorem Requested.spec
    {loader : Loader}
    {context : Path}
    {specifier : String}
    {origin : Option Path}
    {after : Phase × Loader}
    (requested : loader.Requested context specifier origin after) :
    after.1.openLoad? = none ∧ (∀ answer, after.1 ≠ .resting answer) ∧
      loader.Keeps after.2 := by
  have remembers (memo : DescriptorMemo) : loader.Keeps { loader with memo } :=
    .of_eq rfl rfl rfl rfl rfl
  cases requested with
  | path _ _ => exact ⟨rfl, nofun, remembers _⟩
  | stub _ _ => exact ⟨rfl, nofun, (remembers _).trans (keeps_newObject _)⟩
  | unresolved _ _ => exact ⟨rfl, nofun, remembers _⟩

/-- A body that goes on is the innermost load again. -/
theorem Resumed.spec
    {loader : Loader}
    {waiting : Waiting}
    {outcome : Except LoadError Value}
    {after : Phase × Loader}
    (resumed : loader.Resumed waiting outcome after) :
    after.1.openLoad? = some waiting.openLoad ∧
      after.1.opening? = none ∧ loader.Keeps after.2 := by
  cases resumed with
  | given value => exact ⟨rfl, rfl, loader.keeps_assign _ _⟩
  | caught error _ =>
      exact ⟨rfl, rfl,
        ((loader.keeps_emit fun _ => rfl).trans (keeps_assign _ _ _)).trans
        (keeps_assign _ _ _)⟩
  | uncaught error _ => exact ⟨rfl, rfl, .refl loader⟩

/-- To conclude an operation starts nothing. -/
theorem keeps_conclude
    (loader : Loader)
    (name : Option String)
    (outcome : Except LoadError Value) :
    loader.Keeps (loader.conclude name outcome).2 := by
  cases outcome with
  | ok value =>
      cases name with
      | none => exact .refl loader
      | some name => exact loader.keeps_assign name value
  | error error => exact .refl loader

/-- To read a file keeps the loads as they are and starts its body if it
holds one. -/
theorem Started.spec
    {loader : Loader}
    {id : Nat}
    {filename : Path}
    {after : Phase × Loader}
    (started : loader.Started id filename after) :
    after.1.openLoad? = some ⟨id, filename⟩ ∧
      after.1.opening? = none ∧
        loader.KeepsLoads after.2 ∧
          ∀ other, after.2.starts other =
            loader.starts other +
              if other = filename ∧ loader.holdsBody filename then 1
                else 0 := by
  have reads (after : Loader) (noBody : loader.holdsBody filename = false)
      (keeps : loader.Keeps after) :
      loader.KeepsLoads after ∧
        ∀ other, after.starts other =
          loader.starts other + if other = filename ∧ loader.holdsBody filename
            then 1 else 0 :=
    ⟨keeps.toKeepsLoads, fun other => by simp [noBody, keeps.starts other]⟩
  have runs (source : String) (body : loader.holdsBody filename = true)
      (other : Path) :
      (loader.emit (.run filename source)).starts other =
        loader.starts other + if other = filename ∧ loader.holdsBody filename
          then 1 else 0 := by
    simp [starts_emit, Event.starts, body, eq_comm]
  cases started with
  | unreadable contents =>
      have noBody : loader.holdsBody filename = false := by
        simp [holdsBody, contents, Except.isOk, Except.toBool]
      exact ⟨rfl, rfl, reads _ noBody (.refl loader)⟩
  | malformed _ data =>
      have noBody : loader.holdsBody filename = false := by
        simp [holdsBody, data]
      exact ⟨rfl, rfl, reads _ noBody (.refl loader)⟩
  | data json _ data =>
      have noBody : loader.holdsBody filename = false := by
        simp [holdsBody, data]
      refine ⟨rfl, rfl, reads _ noBody (.trans ?_ (keeps_setExports _ id _))⟩
      exact .of_eq rfl rfl rfl rfl rfl
  | @unknown source contents data _ =>
      have body : loader.holdsBody filename = true := by
        simp [holdsBody, contents, data, Except.isOk, Except.toBool]
      exact ⟨rfl, rfl, loader.keepsLoads_emit _, runs source body⟩
  | @body source _ frame _ contents data _ isRecord isFile =>
      have body : loader.holdsBody filename = true := by
        simp [holdsBody, contents, data, Except.isOk, Except.toBool]
      refine ⟨?_, rfl, ⟨rfl, rfl, rfl, fun _ => rfl⟩, runs source body⟩
      rw [← isRecord, ← isFile]
      rfl

end Loader

namespace Moment

/-- How one moment leads to the next, as far as loads are concerned. -/
inductive Transition (moment next : Moment) : Prop
  /-- The loads stay as they are. -/
  | keeps
      (opening : moment.phase.opening? = none)
      (failing : moment.phase.failing? = none)
      (nextOpening : next.phase.opening? = none)
      (atRest : ∀ answer, next.phase = .resting answer → next.waiting = [])
      (openLoads : next.openLoads = moment.openLoads)
      (loader : moment.loader.Keeps next.loader)
  /-- A load begins. -/
  | opens
      (path : Path)
      (phase : moment.phase = .loading path)
      (fresh : moment.loader.cached? path = none)
      (becomes : next = moment.become (moment.loader.look path))
  /-- The file of the innermost load is read. -/
  | starts
      (id : Nat)
      (filename : Path)
      (phase : moment.phase = .opened id filename)
      (nextOpening : next.phase.opening? = none)
      (nextOpen : next.phase.openLoad? = some ⟨id, filename⟩)
      (openLoads : next.openLoads = moment.openLoads)
      (loader : moment.loader.KeepsLoads next.loader)
      (starts : ∀ other, next.loader.starts other =
        moment.loader.starts other +
          if other = filename ∧ moment.loader.holdsBody filename then 1 else 0)
  /-- The innermost load ends. -/
  | closes
      (id : Nat)
      (filename : Path)
      (outcome : Except LoadError Unit)
      (phase : moment.phase = .closing id filename outcome)
      (becomes : next = moment.become (moment.loader.close id filename outcome))

/-- A load that begins is the innermost one. -/
theorem openLoads_become_look
    {moment : Moment}
    {path : Path}
    (phase : moment.phase = .loading path)
    (fresh : moment.loader.cached? path = none) :
    (moment.become (moment.loader.look path)).openLoads =
      ⟨moment.loader.records.size,
          moment.loader.resolver.fileSystem.canonicalize path⟩ ::
        moment.openLoads := by
  simp only [openLoads, become, Loader.look_eq_of_fresh fresh, phase]
  rfl

/-- The load that ends is the innermost one. -/
theorem openLoads_of_closing
    {moment : Moment}
    {id : Nat}
    {filename : Path}
    {outcome : Except LoadError Unit}
    (phase : moment.phase = .closing id filename outcome) :
    moment.openLoads =
      ⟨id, filename⟩ :: moment.waiting.map Waiting.openLoad := by
  simp [openLoads, phase, Phase.openLoad?]

/-- A load that is about to end is still open. -/
theorem mem_openLoads_of_closing
    {moment : Moment}
    {id : Nat}
    {filename : Path}
    {outcome : Except LoadError Unit}
    (phase : moment.phase = .closing id filename outcome) :
    ⟨id, filename⟩ ∈ moment.openLoads := by
  rw [openLoads_of_closing phase]
  exact List.mem_cons_self

/-- Once it has ended, the loads of the waiting bodies are left. -/
theorem openLoads_become_close
    (moment : Moment)
    (id : Nat)
    (filename : Path)
    (outcome : Except LoadError Unit) :
    (moment.become (moment.loader.close id filename outcome)).openLoads =
      moment.waiting.map Waiting.openLoad := by
  cases outcome with
  | ok _ => rfl
  | error error => rfl

theorem openLoads_become
    {moment : Moment}
    {next : Phase × Loader}
    (same : next.1.openLoad? = moment.phase.openLoad?) :
    (moment.become next).openLoads = moment.openLoads := by
  simp only [openLoads, become, same]

/-- Each step opens a load, closes one or keeps them all. -/
theorem transition_of_step
    {moment next : Moment}
    (stepped : moment.step = some next) : Transition moment next := by
  cases stepped_of_step stepped with
  | request phase requested =>
      obtain ⟨noLoad, noRest, keeps⟩ := requested.spec
      refine .keeps (by rw [phase]; rfl) (by rw [phase]; rfl)
        (Phase.opening?_eq_none_of_openLoad? noLoad)
        (fun answer rests => absurd rests (noRest answer))
        (openLoads_become ?_) keeps
      rw [noLoad, phase]
      rfl
  | look path phase =>
      cases cached : moment.loader.cached? path with
      | none => exact .opens path phase cached rfl
      | some id =>
          have looked : moment.loader.look path =
              (.returning (.ok (moment.loader.exportsOf id)),
                moment.loader) := by
            simp [Loader.look, cached]
          rw [looked]
          exact .keeps (by rw [phase]; rfl) (by rw [phase]; rfl) rfl nofun
            (openLoads_become (by rw [phase]; rfl)) (.refl _)
  | start phase started =>
      obtain ⟨openLoad, noOpening, keeps, starts⟩ := started.spec
      refine .starts _ _ phase noOpening openLoad (openLoads_become ?_)
        keeps starts
      rw [openLoad, phase]
      rfl
  | finish frame exports phase =>
      exact .keeps (by rw [phase]; rfl) (by rw [phase]; rfl) rfl nofun
        (openLoads_become (by rw [phase]; rfl)) (.refl _)
  | ask phase _ =>
      refine .keeps (by rw [phase]; rfl) (by rw [phase]; rfl) rfl nofun ?_
        (.refl _)
      simp only [openLoads, phase]
      rfl
  | instr phase _ _ effect =>
      refine .keeps (by rw [phase]; rfl) (by rw [phase]; rfl)
        (Frame.opening?_next _ _ _)
        (fun answer rests =>
          absurd rests
            (Phase.ne_resting_of_openLoad? (Frame.openLoad?_next _ _ _) answer))
        (openLoads_become ?_) effect.keeps
      rw [Frame.openLoad?_next, phase]
      rfl
  | close id filename outcome phase =>
      exact .closes id filename outcome phase rfl
  | resume phase waits resumed =>
      obtain ⟨openLoad, noOpening, keeps⟩ := resumed.spec
      -- The body that goes on is the innermost of those that waited.
      refine .keeps (by rw [phase]; rfl) ?_ noOpening
        (fun answer rests =>
          absurd rests (Phase.ne_resting_of_openLoad? openLoad answer))
        ?_ keeps
      · rw [phase]
        rfl
      · simp only [openLoads, become, openLoad, phase, waits]
        rfl
  | conclude outcome phase noneWait =>
      refine .keeps (by rw [phase]; rfl) (by rw [phase]; rfl) rfl
        (fun _ _ => rfl) ?_ (moment.loader.keeps_conclude moment.name outcome)
      simp only [openLoads, phase, noneWait]
      rfl

/-- The operation of a loader without open loads begins without any. -/
theorem transition_of_begin
    {moment next : Moment}
    {answer : Answer}
    {operation : Operation}
    (rests : moment.phase = .resting answer)
    (noneWait : moment.waiting = [])
    (begun : begin moment.loader operation = some next) :
    Transition moment next := by
  obtain ⟨phase, waiting, name, loader⟩ := moment
  obtain rfl : phase = .resting answer := rests
  obtain rfl : waiting = [] := noneWait
  have evaluates (expr : Expr) : loader.Keeps (loader.eval expr).2 :=
    .of_eq rfl rfl rfl rfl rfl
  cases begun_of_begin begun with
  | requireNothing name =>
      exact .keeps rfl rfl rfl (fun _ _ => rfl) rfl loader.keeps_newObject
  | setExports expr _ =>
      exact .keeps rfl rfl rfl (fun _ _ => rfl) rfl
        ((evaluates expr).trans (Loader.keeps_setExports _ _ _))
  | _ =>
      exact .keeps rfl rfl rfl (fun _ _ => rfl) rfl (.of_eq rfl rfl rfl rfl rfl)

/-! ## Runs -/

/-- The file system stays through all transitions. -/
theorem Transition.fileSystem
    {moment next : Moment}
    (transition : Transition moment next) :
    next.loader.resolver.fileSystem = moment.loader.resolver.fileSystem := by
  cases transition with
  | keeps _ _ _ _ _ loader => exact loader.fileSystem
  | opens path phase fresh becomes =>
      subst becomes
      simp only [become, Loader.look, fresh]
      rfl
  | starts _ _ _ _ _ _ loader => exact loader.fileSystem
  | closes id filename outcome phase becomes =>
      subst becomes
      cases outcome with
      | ok _ => rfl
      | error error => rfl

/-- No body waits when an operation is over. -/
theorem Transition.waiting_eq_nil
    {moment next : Moment}
    {answer : Answer}
    (transition : Transition moment next)
    (rests : next.phase = .resting answer) : next.waiting = [] := by
  cases transition with
  | keeps _ _ _ atRest _ _ => exact atRest answer rests
  | opens path phase fresh becomes =>
      subst becomes
      simp [become, Loader.look, fresh] at rests
  | starts _ _ _ _ isOpen _ _ _ =>
      exact absurd rests (Phase.ne_resting_of_openLoad? isOpen answer)
  | closes id filename outcome phase becomes =>
      subst becomes
      cases outcome with
      | ok _ => cases rests
      | error error => cases rests

namespace Run

variable {loader : Loader} {moment next : Moment} {past : List Moment}

/-- Whenever the loader rests, no body waits, so each moment leads to the
next in one of the four ways. -/
theorem atRest_and_transition
    (run : Run (initial loader) past moment) :
    (∀ answer, moment.phase = .resting answer → moment.waiting = []) ∧
      ∀ next, Next moment next → Transition moment next := by
  have of_atRest : ∀ moment : Moment,
      (∀ answer, moment.phase = .resting answer → moment.waiting = []) →
        ∀ next, Next moment next → Transition moment next := by
    intro moment atRest next follows
    cases follows with
    | step stepped => exact transition_of_step stepped
    | operation answer operation rests begun =>
        exact transition_of_begin rests (atRest answer rests) begun
  induction run with
  | start => exact ⟨fun _ _ => rfl, of_atRest _ fun _ _ => rfl⟩
  | next _ follows inductionHypothesis =>
      have transition := inductionHypothesis.2 _ follows
      refine ⟨?_, of_atRest _ ?_⟩
      · exact fun answer rests => transition.waiting_eq_nil rests
      · exact fun answer rests => transition.waiting_eq_nil rests

/-- Nothing waits at rest. -/
theorem waiting_eq_nil
    (run : Run (initial loader) past moment)
    {answer : Answer}
    (rests : moment.phase = .resting answer) : moment.waiting = [] :=
  run.atRest_and_transition.1 answer rests

/-- The moments of a run follow one another by transitions. -/
theorem transition
    (run : Run (initial loader) past moment)
    (follows : Next moment next) : Transition moment next :=
  run.atRest_and_transition.2 next follows

/-- A run has one file system. -/
theorem fileSystem_eq
    (run : Run (initial loader) past moment) :
    moment.loader.resolver.fileSystem = loader.resolver.fileSystem := by
  induction run with
  | start => rfl
  | next run follows inductionHypothesis =>
      exact (run.transition follows).fileSystem.trans inductionHypothesis

end Run
end Moment
end CommonJs
