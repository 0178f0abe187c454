import CommonJs.Proofs.Loading.Correspondence
import CommonJs.Proofs.Loading.Handles
import CommonJs.Proofs.Loading.Transition
import CommonJs.Proofs.Resolver.Browserless
import CommonJs.Proofs.Resolver.Canonical

/-!
# To require is to resolve and to load

A request is resolved first, and what is done then depends only on what the
specifier asks for. So a request from outside is a resolution followed by the
load of the file that it leads to, under any spelling of the file. A request
of a body names the directory of the body as its origin, which is what a
request without an origin falls back to; it takes the same steps as a request
from outside, with the bodies that wait below.
-/

namespace CommonJs

/-! ## Requests -/

namespace Loading

/-- What is done about a file that was looked for: it is loaded, and a request
for nothing gets a new object. -/
def fetch (load : Path → Loading Value) : Option Path → Loading Value
  | some path => load path
  | none => newObject

/-- A request does what the resolution of its specifier says. -/
theorem run_require
    (load : Path → Loading Value)
    {context : Path}
    {specifier : String}
    {origin : Option Path}
    {loader : Loader}
    {found : ResolveResult}
    {memo : DescriptorMemo}
    (resolved : loader.resolver.resolve loader.memo context specifier origin =
      some (found, memo)) :
    (require load context specifier origin).run loader =
      match found.located context specifier with
      | .ok path => (fetch load path).run { loader with memo }
      | .error error => some (.error error, { loader with memo }) := by
  rw [require, run_bind, run_resolve, resolved, Option.map_some,
    Option.bind_some]
  unfold ResolveResult.located
  dsimp only
  cases found.resolution <;> rfl

/-- A request acts on what a look for its file reports. -/
theorem require_eq_locate_bind
    (load : Path → Loading Value)
    (context : Path)
    (specifier : String)
    (origin : Option Path) :
    require load context specifier origin =
      locate context specifier origin >>= fetch load := by
  refine ExceptT.ext (funext fun loader => ?_)
  rw [run_bind, run_locate]
  cases resolved : loader.resolver.resolve loader.memo context specifier
    origin with
  | none =>
      rw [require, run_bind, run_resolve, resolved]
      rfl
  | some found =>
      rw [run_require load resolved, Option.map_some, Option.bind_some]
      cases found.1.located context specifier <;> rfl

/-- A file is loaded in the same way under all spellings of its path. -/
theorem run_load_eq_of_canonicalize_eq
    {path spelling : Path}
    {loader : Loader}
    (same : loader.resolver.fileSystem.canonicalize spelling =
      loader.resolver.fileSystem.canonicalize path) :
    (load spelling).run loader = (load path).run loader := by
  unfold load
  rw [run_get_bind, run_get_bind, loadWithin, loadWithin, run_get_bind,
    run_get_bind]
  simp only [Loader.cached?, same]

end Loading

namespace Moment

/-! ## Steps above other bodies -/

/-- The moment with further bodies that wait below it. -/
def stackedOn
    (moment : Moment)
    (below : List Waiting)
    (name : Option String) : Moment :=
  { moment with waiting := moment.waiting ++ below, name }

/-- The next step answers the operation. -/
def Concludes (moment : Moment) : Prop :=
  moment.waiting = [] ∧ ∃ outcome, moment.phase = .returning outcome

section Stacked

variable {moment : Moment} (below : List Waiting) (name : Option String)

/-- Bodies that wait below do not matter until all others have ended. -/
theorem step_stackedOn
    (busy : ¬ moment.Concludes) :
    (moment.stackedOn below name).step =
      moment.step.map (·.stackedOn below name) := by
  obtain ⟨phase, waiting, own, loader⟩ := moment
  cases phase with
  | resting answer => rfl
  | requesting context specifier origin =>
      simp only [step, stackedOn, Option.map_map]
      rfl
  | loading path => rfl
  | opened id filename => rfl
  | running frame exports rest =>
      cases rest with
      | nil => rfl
      | cons first rest =>
          cases requests : first.request? with
          | some request =>
              simp only [step, stackedOn, requests]
              rfl
          | none =>
              simp only [step, stackedOn, requests, Option.map_map]
              rfl
  | closing id filename outcome => rfl
  | returning outcome =>
      cases waiting with
      | nil => exact absurd ⟨rfl, outcome, rfl⟩ busy
      | cons waiting others => rfl

theorem after_stackedOn
    {count : Nat}
    (busy : ∀ earlier < count, ∀ between,
      moment.after earlier = some between → ¬ between.Concludes) :
    (moment.stackedOn below name).after count =
      (moment.after count).map (·.stackedOn below name) := by
  induction count generalizing moment with
  | zero => rfl
  | succ count inductionHypothesis =>
      have first :=
        step_stackedOn below name (busy 0 (Nat.succ_pos _) moment rfl)
      rw [after, after, first]
      cases stepped : moment.step with
      | none => rfl
      | some next =>
          rw [Option.map_some, Option.bind_some, Option.bind_some]
          refine inductionHypothesis fun earlier soon between reaches => ?_
          refine busy (earlier + 1) (Nat.succ_lt_succ soon) between ?_
          rw [after, stepped, Option.bind_some, reaches]

end Stacked

/-! ## Agreement -/

/-- After a moment there is a new object without fields, which nobody held
before, and besides it the loader is as it was. -/
structure NewObject
    (moment : Moment)
    (handle : Handle)
    (after : Loader) : Prop where
  /-- The handle had no cell. -/
  fresh : moment.loader.workspace.heap.cell? handle = none
  /-- No value that was held had it. -/
  unheld : ∀ value, moment.Holds value → value.handle? ≠ some handle
  /-- Now its cell is an object without fields. -/
  empty : after.workspace.heap.cell? handle = some (.object .empty)
  /-- Nothing is noted. -/
  events : after.events = moment.loader.events
  /-- No record is made or changed. -/
  records : after.records = moment.loader.records
  /-- The cache is as it was. -/
  cache : after.cache = moment.loader.cache

/-- A request for a specifier that has a resolution does what the resolution
says. -/
structure Agrees
    (moment : Moment)
    (context : Path)
    (specifier : String)
    (result : ResolveResult)
    (memo : DescriptorMemo) : Prop where
  /-- To resolve changes nothing but what is remembered. -/
  resolves :
    moment.loader.perform (.resolveFrom context specifier none) =
      some (.resolution result.resolution, { moment.loader with memo })
  /-- A file is loaded, under any spelling of its path. -/
  path : ∀ path, result.resolution = .path path →
    moment.loader.resolver.fileSystem.canonicalize path = path ∧
      ∀ spelling name,
        moment.loader.resolver.fileSystem.canonicalize spelling = path →
        moment.loader.perform (.requireFrom context specifier name) =
          Loader.perform { moment.loader with memo }
            (.requireModule (some spelling) name)
  /-- A request for nothing gets a new object. -/
  stub : result.resolution = .stub →
    ∀ name,
      moment.loader.perform (.requireFrom context specifier name) =
          Loader.perform { moment.loader with memo }
            (.requireModule none name) ∧
        ∃ handle after,
          moment.loader.perform (.requireFrom context specifier name) =
              some (.value (.object handle), after) ∧
            moment.NewObject handle after
  /-- A specifier that leads nowhere is an error, and nothing is loaded. -/
  unresolved : ∀ reason, result.resolution = .unresolved reason →
    ∀ name,
      moment.loader.perform (.requireFrom context specifier name) =
        some (.error (.notFound specifier context result.tried),
          { moment.loader with memo })

/-- A request of a body is a request from outside from the directory of the
body. -/
structure ActsFromOutside
    (loader : Loader)
    (directory : Path)
    (specifier : String) : Prop where
  /-- To ask for a module is to look for its file and to load that file. -/
  located : ∀ load,
    Loading.require load directory specifier (some directory) =
      Loading.locate directory specifier (some directory) >>= Loading.fetch load
  /-- The origin of the request makes no difference. -/
  origin : ∀ load,
    Loading.require load directory specifier (some directory) =
      Loading.require load directory specifier none
  /-- The steps are those of the operation, until that has its outcome. -/
  steps : ∀ asked outside,
    begin loader (.requireFrom directory specifier asked) = some outside →
      ∀ below name count,
        (∀ earlier ≤ count, ∀ between,
          outside.after earlier = some between → ¬ between.Concludes) →
          after (count + 1)
              ⟨.requesting directory specifier (some directory), below, name,
                loader⟩ =
            (outside.after (count + 1)).map (·.stackedOn below name)
  /-- What the operation answers is what the body gets. -/
  outcome : ∀ asked answer last,
    loader.perform (.requireFrom directory specifier asked) =
        some (answer, last) →
      ∀ below name, ∃ given between,
        Steps ⟨.requesting directory specifier (some directory), below,
              name, loader⟩
            ⟨.returning given, below, name, between⟩ ∧
          between.conclude asked given = (answer, last)

theorem actsFromOutside
    (loader : Loader)
    (directory : Path)
    (specifier : String) : ActsFromOutside loader directory specifier where
  located load :=
    Loading.require_eq_locate_bind load directory specifier (some directory)
  -- Without an origin the package around the context counts, the same here.
  origin load := rfl
  steps asked outside begun below name count busy := by
    obtain rfl := Option.some.inj begun
    rw [← after_stackedOn below name fun earlier soon =>
      busy earlier (Nat.le_of_lt_succ soon)]
    rfl
  outcome asked answer last performed below name := by
    obtain ⟨given, between, ran, concluded⟩ := steps_answerLoading performed
    have ranInside :
        (Loading.require Loading.load directory specifier (some directory)).run
            loader =
          some (given, between) := ran
    exact ⟨given, between, steps_require follows_load ranInside below name,
      concluded⟩

/-- A request for nothing gives an object that nobody held. -/
theorem Grounded.exists_newObject
    {moment : Moment}
    (grounded : moment.Grounded)
    (memo : DescriptorMemo)
    (name : Option String) :
    ∃ handle after,
      Loader.perform { moment.loader with memo } (.requireModule none name) =
          some (.value (.object handle), after) ∧
        moment.NewObject handle after := by
  let heap := moment.loader.workspace.heap
  have fresh : heap.cell? ⟨heap.size⟩ = none := by simp [Heap.cell?, Heap.size]
  have empty : heap.newObject.2.cell? ⟨heap.size⟩ = some (.object .empty) := by
    simp [Heap.newObject, Heap.cell?_allocate]
  have unheld (value : Value) (holds : moment.Holds value) :
      value.handle? ≠ some ⟨heap.size⟩ :=
    (grounded.knows_of_holds holds).handle?_ne fresh
  cases name with
  | none => exact ⟨⟨heap.size⟩, _, rfl, fresh, unheld, empty, rfl, rfl, rfl⟩
  | some name =>
      exact ⟨⟨heap.size⟩, _, rfl, fresh, unheld, empty, rfl, rfl, rfl⟩

/-- At every moment of every run in a tree, a request does what the resolution
of its specifier says: it loads the file, gives a new object that nobody held
before, or fails with what was asked and tried. And the request of a body is
one from outside from its directory, which acts on what a look for the file
reports. -/
theorem require_agrees_with_resolve
    {tree : FileTree}
    (built : tree.Built)
    {config : ResolverConfig}
    {bodies : List (String × Script)}
    {past : List Moment}
    {moment : Moment}
    (run :
      Run (initial (.new ⟨tree.toFileSystem, config⟩ bodies)) past moment) :
    (∀ context specifier result memo,
      moment.loader.resolver.resolve moment.loader.memo context specifier none =
          some (result, memo) →
        moment.Agrees context specifier result memo) ∧
      ∀ directory specifier,
        ActsFromOutside moment.loader directory specifier := by
  refine ⟨fun context specifier result memo resolved => ?_,
    fun directory specifier =>
      actsFromOutside moment.loader directory specifier⟩
  have ran := Loading.run_require Loading.load resolved
  refine ⟨?_, fun path leads => ?_, fun stub name => ?_,
    fun reason leads name => ?_⟩
  · simp [Loader.perform, resolved]
  · have located : result.located context specifier = .ok (some path) := by
      simp only [ResolveResult.located, leads]
    have sameFiles : moment.loader.resolver.fileSystem = tree.toFileSystem :=
      run.fileSystem_eq
    have canonical :
        moment.loader.resolver.fileSystem.canonicalize path = path := by
      have inTree : moment.loader.resolver =
          ⟨tree.toFileSystem, moment.loader.resolver.config⟩ := by
        rw [← sameFiles]
      rw [inTree] at resolved
      obtain ⟨_, canonical⟩ :=
        ((Resolver.tracks_namesCanonicalFile built.keyed _).resolve trivial
            resolved).2
          path leads path rfl
      rw [sameFiles]
      exact canonical
    refine ⟨canonical, fun spelling name spells => ?_⟩
    rw [located] at ran
    rw [Loader.perform, Loader.perform, Loader.answerLoading_eq,
      Loader.answerLoading_eq, ran]
    have sameLoad :
        (Loading.load spelling).run { moment.loader with memo } =
          (Loading.load path).run { moment.loader with memo } :=
      Loading.run_load_eq_of_canonicalize_eq (spells.trans canonical.symm)
    rw [sameLoad]
    rfl
  · have located : result.located context specifier = .ok none := by
      simp only [ResolveResult.located, stub]
    rw [located] at ran
    have agrees : moment.loader.perform (.requireFrom context specifier name) =
        Loader.perform { moment.loader with memo }
          (.requireModule none name) := by
      rw [Loader.perform, Loader.perform, Loader.answerLoading_eq,
        Loader.answerLoading_eq, ran]
      rfl
    refine ⟨agrees, ?_⟩
    rw [agrees]
    exact run.grounded.exists_newObject memo name
  · have located : result.located context specifier =
        .error (.notFound specifier context result.tried) := by
      simp only [ResolveResult.located, leads]
    rw [located] at ran
    rw [Loader.perform, Loader.answerLoading_eq, ran]
    rfl

/-- A package whose main file is replaced by nothing gives a new object, and
its manifest is the same data under another spelling of its path. -/
theorem require_agrees_with_resolve_remapped :
    (∃ handle after,
      (Loader.new ⟨Resolver.remapped.toFileSystem, .standard⟩ []).perform
          (.requireFrom (.ofString "/") "./p" none) =
            some (.value (.object handle), after) ∧
        (initial (.new ⟨Resolver.remapped.toFileSystem, .standard⟩
          [])).NewObject handle after) ∧
      ∃ memo,
        (Loader.new ⟨Resolver.remapped.toFileSystem, .standard⟩ []).perform
            (.requireFrom (.ofString "/") "./p/package.json" none) =
          Loader.perform
            { Loader.new ⟨Resolver.remapped.toFileSystem, .standard⟩ [] with
              memo }
            (.requireModule
              (some (.ofString "/q/../p/package.json")) none) := by
  have built : Resolver.remapped.Built := by
    rw [Resolver.remapped, Resolver.packageWith]
    exact .insertFile _ _ (.insertFile _ _ .empty)
  have run : Run
      (initial (.new ⟨Resolver.remapped.toFileSystem, .standard⟩ [])) []
      (initial (.new ⟨Resolver.remapped.toFileSystem, .standard⟩ [])) := .start
  have agrees := (require_agrees_with_resolve built run).1
  constructor
  · have leads :
        (Resolver.resolve ⟨Resolver.remapped.toFileSystem, .standard⟩ .empty
          (.ofString "/")
          "./p" none).map (·.1.resolution) = some .stub := by
      decide +kernel
    obtain ⟨⟨result, memo⟩, resolved, stub⟩ := Option.map_eq_some_iff.mp leads
    exact ((agrees _ _ _ _ resolved).stub stub none).2
  · have leads :
        (Resolver.resolve ⟨Resolver.remapped.toFileSystem, .standard⟩ .empty
          (.ofString "/")
          "./p/package.json" none).map (·.1.resolution) =
            some (.path (.ofString "/p/package.json")) := by
      decide +kernel
    have spells : Resolver.remapped.canonicalize
          (.ofString "/q/../p/package.json") =
        .ofString "/p/package.json" := by
      decide +kernel
    obtain ⟨⟨result, memo⟩, resolved, isPath⟩ := Option.map_eq_some_iff.mp leads
    exact ⟨memo, ((agrees _ _ _ _ resolved).path _ isPath).2 _ none spells⟩

end Moment
end CommonJs
