import CommonJs.Proofs.Loading.Remembered
import CommonJs.Proofs.Loading.Stack
import CommonJs.Proofs.Resolver.Browserless
import CommonJs.Proofs.Resolver.Forgetting

/-!
# Loading ends

Modules may ask for each other in a circle, fail, and be asked for again and
again. But a file that is loading is cached, so the running bodies are of
different files, and there are never more of them than files. A body that asks
for a module adds one to them, and a body has a finite number of instructions.
So where resolution returns, each request comes back to who made it, by
induction on the number of files that are not loading and, for each of them,
on the instructions that are left.
-/

namespace CommonJs

/-- A resolver that was never asked anything answers every request. -/
def Resolver.Returns (resolver : Resolver) : Prop :=
  ∀ context specifier origin,
    (resolver.resolve .empty context specifier origin).isSome = true

/-- A resolver that does not look at browser fields answers every request. -/
theorem Resolver.returns_of_browserless
    (tree : FileTree)
    {config : ResolverConfig}
    (plain : config.browser = false) :
    Resolver.Returns ⟨tree.toFileSystem, config⟩ := by
  intro context specifier origin
  obtain ⟨result, next, outcome, _⟩ :=
    Resolver.exists_resolve_plain (Resolver.mainsAgree tree config) plain
      DescriptorMemo.honest_empty context specifier origin
  rw [outcome]
  rfl

/-- The resolver of a loader answers every request, after all that the loader
remembers. -/
def Loader.Resolves (loader : Loader) : Prop :=
  ∀ context specifier origin,
    (loader.resolver.resolve loader.memo context specifier origin).isSome = true

/-- What a resolver remembers does not keep it from answering. -/
theorem Resolver.Remembers.resolves
    {loader : Loader}
    (remembers : loader.resolver.Remembers loader.memo)
    (uniform : loader.resolver.fileSystem.Uniform)
    (returns : loader.resolver.Returns) : loader.Resolves := by
  intro context specifier origin
  have fresh := returns context specifier origin
  have alike :=
    Resolver.alike_resolve uniform remembers.honest DescriptorMemo.honest_empty
      context specifier origin
  generalize loader.resolver.resolve .empty context specifier origin =
    other at fresh alike
  generalize loader.resolver.resolve loader.memo context specifier origin =
    outcome at alike ⊢
  cases alike with
  | none => cases fresh
  | some _ => rfl

/-! ## Running bodies -/

/-- The load of a body. -/
def Frame.openLoad (frame : Frame) : OpenLoad :=
  ⟨frame.record, frame.filename⟩

/-- The body whose instructions are carried out. -/
def Phase.frame? : Phase → Option Frame
  | .running frame _ _ => some frame
  | _ => none

/-- The bodies that have begun and not ended, innermost first. -/
def Moment.frames (moment : Moment) : List Frame :=
  moment.phase.frame?.toList ++ moment.waiting.map (·.frame)

theorem Phase.frame?_eq_none_of_openLoad?
    {phase : Phase}
    (noLoad : phase.openLoad? = none) : phase.frame? = none := by
  cases phase with
  | running frame exports rest => cases noLoad
  | _ => rfl

/-- A body runs while its load is open. -/
theorem Phase.sublist_openLoad? (phase : Phase) :
    (phase.frame?.toList.map Frame.openLoad).Sublist
      phase.openLoad?.toList := by
  cases phase with
  | running frame exports rest => exact .refl _
  | _ => exact List.nil_sublist _

/-- A body that is started is that of a file that holds one. -/
theorem Loader.Started.holdsBody
    {loader : Loader}
    {id : Nat}
    {filename : Path}
    {after : Phase × Loader}
    (started : loader.Started id filename after)
    {frame : Frame}
    (begins : after.1.frame? = some frame) :
    frame.filename = filename ∧ loader.holdsBody filename = true := by
  cases started with
  | body _ _ contents data _ _ isFile =>
      cases begins
      exact ⟨isFile,
        by simp [Loader.holdsBody, contents, data, Except.isOk, Except.toBool]⟩
  | _ => cases begins

namespace Moment

variable {moment next : Moment}

/-- Each body that runs has its load open. -/
theorem sublist_openLoads (moment : Moment) :
    (moment.frames.map Frame.openLoad).Sublist moment.openLoads := by
  rw [frames, List.map_append, List.map_map]
  exact moment.phase.sublist_openLoad?.append (.refl _)

/-- The bodies that run after a step ran before it, but for one that the step
starts. -/
theorem frames_of_step
    (stepped : moment.step = some next) :
    ∀ frame ∈ next.frames,
      frame ∈ moment.frames ∨
        moment.loader.holdsBody frame.filename = true := by
  have waits {after : Phase × Loader} (noFrame : after.1.frame? = none) :
      ∀ frame ∈ (moment.become after).frames,
        frame ∈ moment.frames ∨
          moment.loader.holdsBody frame.filename = true := by
    intro frame runs
    simp only [frames, become, noFrame] at runs
    exact Or.inl (List.mem_append_right _ runs)
  cases stepped_of_step stepped with
  | request phase requested =>
      exact waits (Phase.frame?_eq_none_of_openLoad? requested.spec.1)
  | look path phase =>
      cases cached : moment.loader.cached? path with
      | none => exact waits (by rw [Loader.look_eq_of_fresh cached]; rfl)
      | some id => exact waits (by simp [Loader.look, cached, Phase.frame?])
  | start phase started =>
      intro frame runs
      rcases List.mem_append.mp runs with begins | waiting
      · obtain ⟨rfl, body⟩ := started.holdsBody (Option.mem_toList.mp begins)
        exact Or.inr body
      · exact Or.inl (List.mem_append_right _ waiting)
  | finish frame exports phase => exact waits rfl
  | ask phase requests =>
      intro frame runs
      left
      simpa [frames, phase, Phase.frame?] using runs
  | @instr _ _ _ _ result _ phase _ _ _ =>
      cases result with
      | error error => exact waits rfl
      | ok exports =>
          intro frame runs
          left
          simpa [frames, phase, become, Frame.next, Phase.frame?] using runs
  | close id filename outcome phase =>
      cases outcome with
      | ok _ => exact waits rfl
      | error error => exact waits rfl
  | resume phase waits resumed =>
      intro frame runs
      left
      cases resumed with
      | given value =>
          simpa [frames, phase, waits, become, Phase.frame?] using runs
      | caught error _ =>
          simpa [frames, phase, waits, become, Phase.frame?] using runs
      | uncaught error _ =>
          simp only [frames, phase, waits]
          exact List.mem_cons_of_mem _ runs
  | conclude outcome phase noneWait =>
      intro frame runs
      cases runs

/-- No body runs when an operation begins. -/
theorem frames_of_begin
    {loader : Loader}
    {operation : Operation}
    (begun : begin loader operation = some next) : next.frames = [] := by
  cases begun_of_begin begun with
  | _ => rfl

/-- All the running bodies are those of files that hold one. -/
theorem Run.holdsBody_of_mem_frames
    {loader : Loader}
    {past : List Moment}
    (run : Run (initial loader) past moment) :
    ∀ frame ∈ moment.frames, loader.holdsBody frame.filename = true := by
  induction run with
  | start => exact nofun
  | next run follows inductionHypothesis =>
      intro frame runs
      cases follows with
      | step stepped =>
          rcases frames_of_step stepped frame runs with ran | body
          · exact inductionHypothesis frame ran
          · rwa [Loader.holdsBody, run.fileSystem_eq] at body
      | operation _ _ _ begun =>
          rw [frames_of_begin begun] at runs
          cases runs

/-- No more bodies run at once than there are files. -/
theorem Run.length_frames_le
    {tree : FileTree}
    (built : tree.Built)
    {config : ResolverConfig}
    {bodies : List (String × Script)}
    {past : List Moment}
    (run :
      Run (initial (.new ⟨tree.toFileSystem, config⟩ bodies)) past moment) :
    moment.frames.length ≤ tree.fileCount := by
  have sound :=
    run.stackSound (.initial ⟨tree.toFileSystem, config⟩ bodies) built.canonical
  have isOpen : ∀ frame ∈ moment.frames, frame.openLoad ∈ moment.openLoads :=
    fun frame runs =>
      moment.sublist_openLoads.subset (List.mem_map_of_mem runs)
  have distinct : (moment.frames.map Frame.filename).Nodup := by
    refine .of_map Path.components (.sublist ?_ sound.distinct)
    have listed := moment.sublist_openLoads.map fun load =>
      load.filename.components
    rw [List.map_map] at listed ⊢
    exact listed
  have files : ∀ path ∈ moment.frames.map Frame.filename,
      tree.canonicalize path = path ∧ (tree.read path).isOk = true := by
    intro path listed
    obtain ⟨frame, runs, rfl⟩ := List.mem_map.mp listed
    have isCanonical := sound.canonical _ (isOpen frame runs)
    rw [run.fileSystem_eq] at isCanonical
    have body := run.holdsBody_of_mem_frames frame runs
    rw [Loader.holdsBody, Bool.and_eq_true] at body
    exact ⟨isCanonical, body.1⟩
  simpa only [List.length_map] using FileTree.length_le_fileCount distinct files

/-! ## Outcomes -/

/-- From a moment on no more bodies run at once than the bound of files that the
file system states, and every specifier has a resolution. -/
structure Confined (bound : Nat) (moment : Moment) : Prop where
  /-- The bound is the one that the file system states. -/
  files : moment.loader.resolver.fileSystem.fileBound = bound
  /-- There are never more bodies running than that. -/
  frames : ∀ later, Steps moment later → later.frames.length ≤ bound
  /-- Requests are always answered. -/
  resolves : ∀ later, Steps moment later → later.loader.Resolves

/-- What holds from a moment on holds from a later one on. -/
theorem Confined.later
    {bound : Nat}
    (confined : Confined bound moment)
    (steps : Steps moment next) : Confined bound next where
  files := by rw [resolver_of_steps steps, confined.files]
  frames later continues := confined.frames later (steps.trans continues)
  resolves later continues := confined.resolves later (steps.trans continues)

/-- All the moments of a run are confined where resolution returns. -/
theorem Run.confined
    {tree : FileTree}
    (built : tree.Built)
    {config : ResolverConfig}
    {bodies : List (String × Script)}
    {past : List Moment}
    (run : Run (initial (.new ⟨tree.toFileSystem, config⟩ bodies)) past moment)
    (returns : moment.loader.resolver.Returns) :
    Confined tree.fileCount moment where
  files := by
    rw [run.fileSystem_eq]
    rfl
  frames later steps := by
    obtain ⟨since, run⟩ := run.ofSteps steps
    exact run.length_frames_le built
  resolves later steps := by
    obtain ⟨since, run⟩ := run.ofSteps steps
    have uniform : later.loader.resolver.fileSystem.Uniform := by
      rw [run.fileSystem_eq]
      exact tree.uniform
    refine run.remembers.resolves uniform ?_
    rw [resolver_of_steps steps]
    exact returns

/-- A way to load files has an outcome wherever at least so many bodies
wait. -/
def ReturnsAbove (bound level : Nat) (load : Path → Loading Value) : Prop :=
  ∀ path waiting name loader,
    level ≤ waiting.length →
      Confined bound ⟨.loading path, waiting, name, loader⟩ →
        ((load path).run loader).isSome = true

section Outcomes

variable {bound level : Nat} {load : Path → Loading Value}
  {waiting : List Waiting} {name : Option String} {loader : Loader}

/-- Where requests are answered, a place is found or missed. -/
theorem isSome_locate
    (resolves : loader.Resolves)
    (context : Path)
    (specifier : String)
    (origin : Option Path) :
    ((Loading.locate context specifier origin).run loader).isSome = true := by
  rw [run_locate, Option.isSome_map]
  exact resolves context specifier origin

/-- A request has an outcome if the load of the file that it leads to has
one. -/
theorem isSome_require
    (returns : ReturnsAbove bound level load)
    {context : Path}
    {specifier : String}
    {origin : Option Path}
    (confined : Confined bound
      ⟨.requesting context specifier origin, waiting, name, loader⟩)
    (deep : level ≤ waiting.length) :
    ((Loading.require load context specifier origin).run loader).isSome =
      true := by
  unfold Loading.require
  refine isSome_run_bind ?_ fun result between resolved => ?_
  · rw [run_resolve, Option.isSome_map]
    exact confined.resolves _ .refl context specifier origin
  · obtain ⟨found, memo, isFound, isOk, rfl⟩ := run_resolve_eq_some resolved
    obtain rfl := Except.ok.inj isOk
    cases resolution : result.resolution with
    | path path =>
        refine returns path waiting name _ deep (confined.later (.single ?_))
        simp [step, Loader.request, isFound, resolution, become]
    | stub => rfl
    | unresolved reason => rfl

/-- An instruction that asks for no module has an outcome where specifiers have
one. -/
theorem isSome_instr_of_request?_eq_none
    {frame : Frame}
    {exports : Value}
    {first : Instr}
    (noRequest : first.request? = none)
    (resolves : loader.Resolves) :
    ((Running.instr load frame exports first).run loader).isSome = true := by
  cases first with
  | require specifier name => cases noRequest
  | tryRequire specifier name => cases noRequest
  | change change =>
      rw [run_change]
      rfl
  | resolve specifier name =>
      exact isSome_run_bind (isSome_run_uncaught (isSome_locate resolves _ _ _))
        fun _ _ _ => rfl
  | tryResolve specifier =>
      refine isSome_run_bind (isSome_run_attempt (isSome_locate resolves _ _ _))
        fun located _ _ => ?_
      cases located with
      | ok path => rfl
      | error error => rfl
  | failFirst count =>
      by_cases early : frame.run ≤ count
      · rw [Running.instr, if_pos early]
        rfl
      · rw [Running.instr, if_neg early]
        rfl
  | _ => rfl

/-- A request of a body has one body more that waits. -/
theorem isSome_instr
    (returns : ReturnsAbove bound level load)
    {frame : Frame}
    {exports : Value}
    {first : Instr}
    {rest : Script}
    (confined : Confined bound
      ⟨.running frame exports (first :: rest), waiting, name, loader⟩)
    (deep : level ≤ waiting.length + 1) :
    ((Running.instr load frame exports first).run loader).isSome = true := by
  cases requests : first.request? with
  | none =>
      exact isSome_instr_of_request?_eq_none requests
        (confined.resolves _ .refl)
  | some request =>
      obtain ⟨specifier, target, catches⟩ := request
      have asked :
          ((Loading.require load frame.dirname specifier
              (some frame.dirname)).run loader).isSome =
            true := by
        have waits : Confined bound
            ⟨.requesting frame.dirname specifier (some frame.dirname),
              ⟨frame, exports, target, catches, rest⟩ :: waiting, name,
              loader⟩ :=
          confined.later (.single (by simp [step, requests]))
        exact isSome_require returns waits deep
      cases first with
      | require specifier name =>
          obtain ⟨rfl, rfl, rfl⟩ := by simpa [Instr.request?] using requests
          exact isSome_run_bind (isSome_run_uncaught asked) fun _ _ _ => rfl
      | tryRequire specifier name =>
          obtain ⟨rfl, rfl, rfl⟩ := by simpa [Instr.request?] using requests
          refine isSome_run_bind (isSome_run_attempt asked) fun given _ _ => ?_
          cases given with
          | ok value => rfl
          | error error => rfl
      | _ => cases requests

/-- A script returns if the modules that it loads do. -/
theorem isSome_script
    (returns : ReturnsAbove bound level load)
    (follows : Follows load)
    {frame : Frame}
    {exports : Value}
    {body : Script}
    (confined :
      Confined bound ⟨.running frame exports body, waiting, name, loader⟩)
    (deep : level ≤ waiting.length + 1) :
    ((Running.script load frame exports body).run loader).isSome = true := by
  induction body generalizing exports loader with
  | nil => rfl
  | cons first rest inductionHypothesis =>
      refine isSome_run_bind (isSome_instr returns confined deep)
        fun value between ran => ?_
      exact inductionHypothesis
        (confined.later (steps_instr follows ran rest waiting name))

/-- The file of a new record is read, and its body comes to an end. -/
theorem isSome_evaluate
    (returns : ReturnsAbove bound level load)
    (follows : Follows load)
    {id : Nat}
    {filename : Path}
    (confined : Confined bound ⟨.opened id filename, waiting, name, loader⟩)
    (deep : level ≤ waiting.length + 1) :
    ((Loading.evaluate load id ⟨filename, loader.exportsOf id, false⟩).run
        loader).isSome =
      true := by
  unfold Loading.evaluate
  rw [run_get_bind]
  cases contents : loader.resolver.fileSystem.read filename with
  | error failure => rfl
  | ok source =>
      cases data : Loading.isData filename with
      | true =>
          simp only [if_true]
          cases parsed : Json.ofText? source with
          | none => rfl
          | some json => rfl
      | false =>
          refine isSome_run_bind (isSome_run_attempt ?_) fun ended _ _ => ?_
          · unfold Running.execute
            refine isSome_run_bind rfl fun _ noted emitted => ?_
            cases emitted
            rw [run_get_bind]
            cases named : (loader.emit (.run filename source)).bodies.lookup
              source with
            | none => rfl
            | some body =>
                refine isSome_run_bind rfl fun _ counted counts => ?_
                cases counts
                refine isSome_script returns follows
                  (confined.later (steps_start ?_ _ _)) deep
                simp [Loader.start, contents, data, named]
          · cases ended with
            | ok _ => rfl
            | error error =>
                cases error with
                | stopped failure => rfl
                | uncaught error => rfl

/-- The load of a file returns if the loads inside it do. -/
theorem isSome_loadFresh
    (returns : ReturnsAbove bound level load)
    (follows : Follows load)
    {filename : Path}
    (confined : Confined bound
      ⟨.opened (loader.openRecord filename).1 filename, waiting, name,
        (loader.openRecord filename).2⟩)
    (deep : level ≤ waiting.length + 1) :
    ((Loading.loadFresh load filename).run loader).isSome = true := by
  unfold Loading.loadFresh
  rw [run_get_bind]
  refine isSome_run_bind rfl fun _ opened opens => ?_
  cases opens
  refine isSome_run_bind
    (isSome_run_attempt (isSome_evaluate returns follows confined deep))
    fun ended _ _ => ?_
  cases ended with
  | ok _ => rfl
  | error error => rfl

/-- Loads that may be nested to some depth return where that depth and the
bodies that wait are together more than the bodies that ever run at once. -/
theorem returnsAbove_loadWithin
    {depth : Nat}
    (enough : bound < depth + level) :
    ReturnsAbove bound level (Loading.loadWithin depth) := by
  induction depth generalizing level with
  | zero =>
      intro path waiting name loader deep confined
      have few := confined.frames _ .refl
      simp only [frames, List.length_append, List.length_map] at few
      omega
  | succ depth inductionHypothesis =>
      intro path waiting name loader deep confined
      unfold Loading.loadWithin
      rw [run_get_bind]
      cases cached : loader.cached? path with
      | some id => rfl
      | none =>
          have inner :
              ReturnsAbove bound (level + 1) (Loading.loadWithin depth) :=
            inductionHypothesis (by omega)
          have opened : Confined bound
              ⟨.opened (loader.openRecord
                  (loader.resolver.fileSystem.canonicalize path)).1
                (loader.resolver.fileSystem.canonicalize path), waiting, name,
                (loader.openRecord
                  (loader.resolver.fileSystem.canonicalize path)).2⟩ :=
            confined.later
              (.single (by simp [step, Loader.look, cached, become]))
          exact isSome_loadFresh inner (follows_loadWithin depth) opened
            (by omega)

/-- The bound of the file system is depth enough, whoever waits. -/
theorem returnsAbove_load : ReturnsAbove bound 0 Loading.load := by
  intro path waiting name loader deep confined
  unfold Loading.load
  rw [run_get_bind]
  have returns : ReturnsAbove bound 0
      (Loading.loadWithin (loader.resolver.fileSystem.fileBound + 1)) :=
    returnsAbove_loadWithin
      (by have := confined.files; dsimp only at this; omega)
  exact returns path waiting name loader deep confined

/-- Whatever is under way in a confined moment comes to what it hands to the
innermost body that waits. -/
theorem Confined.exists_returning
    (confined : Confined bound moment)
    (busy : ∀ answer, moment.phase ≠ .resting answer) :
    ∃ outcome after,
      Steps moment
        ⟨.returning outcome, moment.waiting, moment.name, after⟩ := by
  obtain ⟨phase, waiting, name, loader⟩ := moment
  have closes (id : Nat) (filename : Path) (ended : Except LoadError Unit)
      (loader : Loader) :
      ∃ outcome after,
        Steps ⟨.closing id filename ended, waiting, name, loader⟩
          ⟨.returning outcome, waiting, name, after⟩ := by
    cases ended with
    | ok _ => exact ⟨_, _, .single rfl⟩
    | error error => exact ⟨_, _, .single rfl⟩
  cases phase with
  | resting answer => exact absurd rfl (busy answer)
  | requesting context specifier origin =>
      obtain ⟨⟨outcome, after⟩, required⟩ := Option.isSome_iff_exists.mp
        (isSome_require returnsAbove_load confined (Nat.zero_le _))
      exact ⟨outcome, after, steps_require follows_load required waiting name⟩
  | loading path =>
      obtain ⟨⟨outcome, after⟩, loaded⟩ := Option.isSome_iff_exists.mp
        (returnsAbove_load path waiting name loader (Nat.zero_le _) confined)
      exact ⟨outcome, after,
        follows_load path loader outcome after loaded waiting name⟩
  | opened id filename =>
      obtain ⟨⟨ended, between⟩, evaluated⟩ := Option.isSome_iff_exists.mp
        (isSome_evaluate returnsAbove_load follows_load confined
          (Nat.zero_le _))
      obtain ⟨outcome, after, closed⟩ := closes id filename ended between
      exact ⟨outcome, after,
        (steps_evaluate follows_load evaluated waiting name).trans closed⟩
  | running frame exports rest =>
      obtain ⟨⟨ended, between⟩, ran⟩ := Option.isSome_iff_exists.mp
        (isSome_script returnsAbove_load follows_load confined (Nat.zero_le _))
      obtain ⟨outcome, after, closed⟩ := closes frame.record frame.filename
        (ended.mapError (BodyError.loadError frame.filename)) between
      exact ⟨outcome, after,
        (steps_script follows_load ran waiting name).trans closed⟩
  | closing id filename ended => exact closes id filename ended loader
  | returning outcome => exact ⟨outcome, loader, .refl⟩

end Outcomes

theorem isSome_answerLoading
    {loader : Loader}
    {action : Loading Value}
    (returns : (action.run loader).isSome = true)
    (name : Option String) :
    (loader.answerLoading name action).isSome = true := by
  rw [Loader.answerLoading_eq, Option.isSome_map]
  exact returns

/-- A loader that rests has an answer to every operation where resolution
returns. -/
theorem Run.isSome_perform
    {tree : FileTree}
    (built : tree.Built)
    {config : ResolverConfig}
    {bodies : List (String × Script)}
    {past : List Moment}
    {answer : Answer}
    (run : Run (initial (.new ⟨tree.toFileSystem, config⟩ bodies)) past moment)
    (rests : moment.phase = .resting answer)
    (returns : moment.loader.resolver.Returns)
    (operation : Operation) :
    (moment.loader.perform operation).isSome = true := by
  cases operation with
  | requireFrom context specifier name =>
      have begins := run.next
        (.operation answer (.requireFrom context specifier name) rests rfl)
      have confined := begins.confined built returns
      exact isSome_answerLoading
        (isSome_require returnsAbove_load confined (Nat.zero_le _)) name
  | requireModule path name =>
      cases path with
      | none => exact isSome_answerLoading rfl name
      | some path =>
          have begins := run.next
            (.operation answer (.requireModule (some path) name) rests rfl)
          have confined := begins.confined built returns
          exact isSome_answerLoading
            (returnsAbove_load path [] name _ (Nat.zero_le _) confined) name
  | resolveFrom context specifier origin =>
      obtain ⟨found, resolved⟩ := Option.isSome_iff_exists.mp
        ((run.confined built returns).resolves _ .refl context specifier origin)
      simp [Loader.perform, resolved]
  | setExports path expr =>
      simp only [Loader.perform]
      cases moment.loader.cached? path with
      | none => rfl
      | some id => rfl
  | _ => rfl

/-- Loading ends on every graph of modules in a tree:

* at every moment of every run no more bodies are running than the tree has
  files;
* wherever resolution returns, whatever is under way comes to an outcome for
  who asked for it, and with it every request of a body;
* every operation on a loader that operations lead to has an answer.

Resolution returns for every tree where browser fields are not looked at. -/
theorem loading_terminates
    {tree : FileTree}
    (built : tree.Built)
    (config : ResolverConfig)
    (bodies : List (String × Script)) :
    (∀ past moment,
      Run (initial (.new ⟨tree.toFileSystem, config⟩ bodies)) past moment →
      moment.frames.length ≤ tree.fileCount ∧
        (moment.loader.resolver.Returns →
          (∀ answer, moment.phase ≠ .resting answer) →
            ∃ outcome after,
              Steps moment ⟨.returning outcome, moment.waiting, moment.name,
                after⟩)) ∧
      (∀ loader,
        Loader.Reaches (.new ⟨tree.toFileSystem, config⟩ bodies) loader →
        loader.resolver.Returns →
          ∀ operation, ∃ answer after,
            loader.perform operation = some (answer, after)) ∧
        ∀ plain : ResolverConfig,
          plain.browser = false →
            Resolver.Returns ⟨tree.toFileSystem, plain⟩ := by
  refine ⟨?_, ?_, fun plain browserless =>
    Resolver.returns_of_browserless tree browserless⟩
  · intro past moment run
    exact ⟨run.length_frames_le built, fun returns =>
      (run.confined built returns).exists_returning⟩
  · intro loader reaches returns operation
    obtain ⟨past, last, run⟩ := reaches.run
    obtain ⟨⟨answer, after⟩, performed⟩ :=
      Option.isSome_iff_exists.mp
        (run.isSome_perform built rfl returns operation)
    exact ⟨answer, after, performed⟩

/-- Settings under which browser fields are not looked at. -/
def browserless : ResolverConfig :=
  { ResolverConfig.standard with browser := false }

/-- Three modules in a circle are all running when the last of them asks for
the first. -/
theorem loading_terminates_cyclicTree :
    (∃ past moment,
      Run (initial (.new ⟨cyclicTree.toFileSystem, browserless⟩ cyclicBodies))
          past moment ∧
        moment.frames.length = 3 ∧ cyclicTree.fileCount = 3 ∧
          moment.frames.length ≤ cyclicTree.fileCount ∧
            ∃ outcome after,
              Steps moment ⟨.returning outcome, moment.waiting, moment.name,
                after⟩) ∧
      ∃ answer after,
        (Loader.new ⟨cyclicTree.toFileSystem, browserless⟩ cyclicBodies).perform
          (.requireFrom (.ofString "/p") "./a" none) =
            some (answer, after) := by
  have built : cyclicTree.Built :=
    .insertFile _ _ (.insertFile _ _ (.insertFile _ _ .empty))
  obtain ⟨ends, answers, returns⟩ :=
    loading_terminates built browserless cyclicBodies
  refine ⟨?_, answers _ .start (returns browserless rfl) _⟩
  let first : Moment := ⟨.requesting (.ofString "/p") "./a" none, [], none,
    .new ⟨cyclicTree.toFileSystem, browserless⟩ cyclicBodies⟩
  have reached : (first.after 11).map (fun moment =>
      (moment.frames.length, moment.phase.frame?.isSome)) = some (3, true) := by
    decide +kernel
  obtain ⟨moment, reached, shape⟩ := Option.map_eq_some_iff.mp reached
  obtain ⟨three, runs⟩ := Prod.mk.inj shape
  have begins : Run (initial first.loader) [initial first.loader] first :=
    .next .start
      (.operation .done (.requireFrom (.ofString "/p") "./a" none) rfl rfl)
  obtain ⟨past, run⟩ := begins.ofAfter reached
  have sameResolver : moment.loader.resolver = first.loader.resolver :=
    resolver_of_steps (steps_of_after reached)
  refine ⟨past, moment, run, three, by decide +kernel, (ends past moment run).1,
    (ends past moment run).2 ?_ ?_⟩
  · rw [sameResolver]
    exact returns browserless rfl
  · intro answer rests
    rw [rests] at runs
    cases runs

end Moment
end CommonJs
