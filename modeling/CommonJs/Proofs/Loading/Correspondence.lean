import CommonJs.Proofs.Loading.Actions
import CommonJs.Proofs.Loading.Moment

/-!
# Runs and outcomes

Whenever the definitions of the loader give an outcome, the run of single
steps comes to it, with the same answer and the same loader, whichever bodies
wait meanwhile. A step has at most one result, so there is no other run.
-/

namespace CommonJs
/-- The answer of an operation that loads is drawn from the outcome of its
action. -/
theorem Loader.answerLoading_eq
    (loader : Loader)
    (name : Option String)
    (action : Loading Value) :
    loader.answerLoading name action =
      (action.run loader).map fun outcome =>
        outcome.2.conclude name outcome.1 := by
  change (action.run loader).bind _ = _
  cases action.run loader with
  | none => rfl
  | some outcome =>
      obtain ⟨result, after⟩ := outcome
      cases result with
      | ok value =>
          cases name with
          | none => rfl
          | some name => rfl
      | error error => rfl

namespace Moment

open Relation (ReflTransGen)

/-- A way to load files whose outcomes are those of runs. -/
def Follows (load : Path → Loading Value) : Prop :=
  ∀ path before result after,
    (load path).run before = some (result, after) →
      ∀ waiting name,
        Steps ⟨.loading path, waiting, name, before⟩
          ⟨.returning result, waiting, name, after⟩

/-! ## Requests -/

/-- To require is to resolve and then to load. -/
theorem steps_require
    {load : Path → Loading Value}
    (follows : Follows load)
    {context : Path}
    {specifier : String}
    {origin : Option Path}
    {before after : Loader}
    {result : Except LoadError Value}
    (outcome : (Loading.require load context specifier origin).run before =
      some (result, after))
    (waiting : List Waiting)
    (name : Option String) :
    Steps ⟨.requesting context specifier origin, waiting, name, before⟩
      ⟨.returning result, waiting, name, after⟩ := by
  have first : ∀ next : Phase × Loader,
      before.request context specifier origin = some next →
        Steps ⟨.requesting context specifier origin, waiting, name, before⟩
          ⟨next.1, waiting, name, next.2⟩ := by
    intro next requested
    refine ReflTransGen.single ?_
    simp [step, requested, become]
  unfold Loading.require at outcome
  rcases run_bind_eq_some outcome with ⟨error, failed, _⟩ |
    ⟨found, between, resolved, continued⟩
  · obtain ⟨_, _, _, isOk, _⟩ := run_resolve_eq_some failed
    cases isOk
  · obtain ⟨found, memo, isFound, isOk, rfl⟩ := run_resolve_eq_some resolved
    obtain rfl := Except.ok.inj isOk
    cases resolution : found.resolution with
    | path path =>
        simp only [resolution] at continued
        refine (first (.loading path, _) ?_).trans
          (follows path _ _ _ continued waiting name)
        simp [Loader.request, isFound, resolution]
    | stub =>
        simp only [resolution] at continued
        rw [run_newObject] at continued
        cases continued
        exact first (.returning _, _)
          (by simp [Loader.request, isFound, resolution])
    | unresolved reason =>
        simp only [resolution] at continued
        cases continued
        exact first (.returning _, _)
          (by simp [Loader.request, isFound, resolution])

/-! ## Bodies -/

/-- An instruction that asks for no module does not depend on how modules are
loaded. -/
theorem instr_eq_of_request?_eq_none
    {first : Instr}
    (noRequest : first.request? = none)
    (load other : Path → Loading Value)
    (frame : Frame)
    (exports : Value) :
    Running.instr load frame exports first =
      Running.instr other frame exports first := by
  cases first with
  | require specifier name => cases noRequest
  | tryRequire specifier name => cases noRequest
  | _ => rfl

/-- A request of a body ends with the module for the body, or with the body
itself. -/
theorem run_instr_of_request?
    {load : Path → Loading Value}
    {frame : Frame}
    {exports : Value}
    {first : Instr}
    {specifier name : String}
    {catches : Bool}
    {before after : Loader}
    {result : Except BodyError Value}
    (requests : first.request? = some (specifier, name, catches))
    (outcome : (Running.instr load frame exports first).run before =
      some (result, after)) :
    ∃ given between,
      (Loading.require load frame.dirname specifier (some frame.dirname)).run
            before =
          some (given, between) ∧
        ∀ rest,
          between.resume ⟨frame, exports, name, catches, rest⟩ given =
            (frame.next rest result, after) := by
  cases first with
  | require specifier name =>
      obtain ⟨rfl, rfl, rfl⟩ := by simpa [Instr.request?] using requests
      unfold Running.instr at outcome
      rcases run_bind_eq_some outcome with ⟨error, failed, isError⟩ |
        ⟨value, between, ran, assigned⟩
      · obtain ⟨given, required, isGiven⟩ := run_uncaught_eq_some failed
        subst isError
        cases given with
        | ok value => cases isGiven
        | error failure =>
            obtain rfl := Except.error.inj isGiven
            exact ⟨.error failure, after, required, fun rest => rfl⟩
      · obtain ⟨given, required, isGiven⟩ := run_uncaught_eq_some ran
        cases given with
        | error failure => cases isGiven
        | ok value =>
            obtain rfl := Except.ok.inj isGiven
            cases assigned
            exact ⟨.ok _, between, required, fun rest => rfl⟩
  | tryRequire specifier name =>
      obtain ⟨rfl, rfl, rfl⟩ := by simpa [Instr.request?] using requests
      unfold Running.instr at outcome
      rcases run_bind_eq_some outcome with ⟨error, failed, _⟩ |
        ⟨given, between, ran, continued⟩
      · obtain ⟨given, _, isOk⟩ := run_attempt_eq_some failed
        cases isOk
      · obtain ⟨given, required, isGiven⟩ := run_attempt_eq_some ran
        obtain rfl := Except.ok.inj isGiven
        refine ⟨_, between, required, fun rest => ?_⟩
        cases given with
        | ok value =>
            cases continued
            rfl
        | error failure =>
            cases continued
            rfl
  | _ => cases requests

/-- An instruction of a body ends in the steps that the phases take for it. -/
theorem steps_instr
    {load : Path → Loading Value}
    (follows : Follows load)
    {frame : Frame}
    {exports : Value}
    {first : Instr}
    {before after : Loader}
    {result : Except BodyError Value}
    (outcome : (Running.instr load frame exports first).run before =
      some (result, after))
    (rest : Script)
    (waiting : List Waiting)
    (name : Option String) :
    Steps ⟨.running frame exports (first :: rest), waiting, name, before⟩
      ⟨frame.next rest result, waiting, name, after⟩ := by
  cases requests : first.request? with
  | none =>
      rw [instr_eq_of_request?_eq_none requests load
        (fun _ => Loading.exhausted)] at outcome
      refine ReflTransGen.single ?_
      simp [step, requests, Loader.advance, outcome, become]
  | some request =>
      obtain ⟨specifier, target, catches⟩ := request
      obtain ⟨given, between, required, resumed⟩ :=
        run_instr_of_request? requests outcome
      refine ReflTransGen.head ?_
        ((steps_require follows required
          (⟨frame, exports, target, catches, rest⟩ :: waiting) name).trans
          (ReflTransGen.single ?_))
      · simp [step, requests]
      · simp [step, become, resumed rest]

/-- The run of a body comes to the end of its load with the outcome of the
body. -/
theorem steps_script
    {load : Path → Loading Value}
    (follows : Follows load)
    {frame : Frame}
    {exports : Value}
    {body : Script}
    {before after : Loader}
    {result : Except BodyError Unit}
    (outcome : (Running.script load frame exports body).run before =
      some (result, after))
    (waiting : List Waiting)
    (name : Option String) :
    Steps ⟨.running frame exports body, waiting, name, before⟩
      ⟨.closing frame.record frame.filename
        (result.mapError (BodyError.loadError frame.filename)), waiting, name,
        after⟩ := by
  induction body generalizing exports before with
  | nil =>
      cases outcome
      exact ReflTransGen.single rfl
  | cons first rest inductionHypothesis =>
      rcases run_bind_eq_some outcome with ⟨error, failed, rfl⟩ |
        ⟨value, between, ran, continued⟩
      · exact steps_instr follows failed rest waiting name
      · exact (steps_instr follows ran rest waiting name).trans
          (inductionHypothesis continued)

/-! ## Loads -/

/-- A record that was opened is read in one step. -/
theorem steps_start
    {id : Nat}
    {filename : Path}
    {phase : Phase}
    {before after : Loader}
    (started : before.start id filename = (phase, after))
    (waiting : List Waiting)
    (name : Option String) :
    Steps ⟨.opened id filename, waiting, name, before⟩
      ⟨phase, waiting, name, after⟩ := by
  exact ReflTransGen.single (by simp [step, become, started])

/-- A body that is run closes its record with what comes of it. -/
theorem steps_execute
    {load : Path → Loading Value}
    (follows : Follows load)
    {id : Nat}
    {filename : Path}
    {source : String}
    {before after : Loader}
    {result : Except BodyError Unit}
    (contents : before.resolver.fileSystem.read filename = .ok source)
    (noData : Loading.isData filename = false)
    (outcome :
      (Running.execute load id ⟨filename, before.exportsOf id, false⟩
          source).run before =
        some (result, after))
    (waiting : List Waiting)
    (name : Option String) :
    Steps ⟨.opened id filename, waiting, name, before⟩
      ⟨.closing id filename (result.mapError (BodyError.loadError filename)),
        waiting, name,
        after⟩ := by
  rcases run_bind_eq_some outcome with ⟨error, failed, _⟩ |
    ⟨_, between, emitted, continued⟩
  · cases failed
  · cases emitted
    rw [run_get_bind] at continued
    cases named : (before.emit (.run filename source)).bodies.lookup source with
    | none =>
        simp only [named] at continued
        cases continued
        refine steps_start ?_ waiting name
        simp only [Loader.start, contents, noData, named]
        rfl
    | some body =>
        simp only [named] at continued
        rcases run_bind_eq_some continued with ⟨error, failed, _⟩ |
          ⟨_, counted, counts, ran⟩
        · cases failed
        · cases counts
          refine (steps_start ?_ waiting name).trans
            (steps_script follows ran waiting name)
          simp [Loader.start, contents, noData, named]

/-- The run from a new record comes to the end of its load with the outcome
of its evaluation. -/
theorem steps_evaluate
    {load : Path → Loading Value}
    (follows : Follows load)
    {id : Nat}
    {filename : Path}
    {before after : Loader}
    {result : Except LoadError Unit}
    (outcome :
      (Loading.evaluate load id ⟨filename, before.exportsOf id, false⟩).run
          before =
        some (result, after))
    (waiting : List Waiting)
    (name : Option String) :
    Steps ⟨.opened id filename, waiting, name, before⟩
      ⟨.closing id filename result, waiting, name, after⟩ := by
  unfold Loading.evaluate at outcome
  rw [run_get_bind] at outcome
  cases contents : before.resolver.fileSystem.read filename with
  | error failure =>
      simp only [contents] at outcome
      cases outcome
      refine steps_start ?_ waiting name
      simp [Loader.start, contents]
  | ok source =>
      simp only [contents] at outcome
      by_cases data : Loading.isData filename = true
      · simp only [data] at outcome
        cases parsed : Json.ofText? source with
        | none =>
            simp only [parsed] at outcome
            cases outcome
            refine steps_start ?_ waiting name
            simp [Loader.start, contents, data, parsed]
        | some json =>
            simp only [parsed] at outcome
            cases outcome
            refine steps_start ?_ waiting name
            simp [Loader.start, Loader.setExports, contents, data, parsed]
      · simp only [data] at outcome
        rcases run_bind_eq_some outcome with ⟨error, failed, _⟩ |
          ⟨ended, between, ran, continued⟩
        · obtain ⟨_, _, isOk⟩ := run_attempt_eq_some failed
          cases isOk
        · obtain ⟨ended, executed, isEnded⟩ := run_attempt_eq_some ran
          obtain rfl := Except.ok.inj isEnded
          have closes :
              result = ended.mapError (BodyError.loadError filename) ∧
                after = between := by
            cases ended with
            | ok _ =>
                cases continued
                exact ⟨rfl, rfl⟩
            | error error =>
                cases error with
                | stopped failure =>
                    cases continued
                    exact ⟨rfl, rfl⟩
                | uncaught error =>
                    cases continued
                    exact ⟨rfl, rfl⟩
          obtain ⟨rfl, rfl⟩ := closes
          exact steps_execute follows contents (by simpa using data) executed
            waiting name

/-- The run of a new record comes to its exports, or to the failure that took
the record away. -/
theorem steps_loadFresh
    {load : Path → Loading Value}
    (follows : Follows load)
    {filename : Path}
    {before after : Loader}
    {result : Except LoadError Value}
    (outcome : (Loading.loadFresh load filename).run before =
      some (result, after))
    (waiting : List Waiting)
    (name : Option String) :
    Steps
      ⟨.opened (before.openRecord filename).1 filename, waiting, name,
        (before.openRecord filename).2⟩
      ⟨.returning result, waiting, name, after⟩ := by
  unfold Loading.loadFresh at outcome
  rw [run_get_bind] at outcome
  rcases run_bind_eq_some outcome with ⟨error, failed, _⟩ |
    ⟨_, opened, opens, continued⟩
  · cases failed
  · cases opens
    rcases run_bind_eq_some continued with ⟨error, failed, _⟩ |
      ⟨ended, between, ran, closed⟩
    · obtain ⟨_, _, isOk⟩ := run_attempt_eq_some failed
      cases isOk
    · obtain ⟨ended, evaluated, isEnded⟩ := run_attempt_eq_some ran
      obtain rfl := Except.ok.inj isEnded
      refine (steps_evaluate follows evaluated waiting name).trans
        (ReflTransGen.single ?_)
      cases ended with
      | ok _ =>
          cases closed
          rfl
      | error error =>
          cases closed
          rfl

/-- Loads that are nested at most so many deep follow the run, for the loads
inside of them are nested one less deep. -/
theorem follows_loadWithin
    (depth : Nat) : Follows (Loading.loadWithin depth) := by
  induction depth with
  | zero =>
      intro path before result after outcome
      cases outcome
  | succ depth inductionHypothesis =>
      intro path before result after outcome waiting name
      unfold Loading.loadWithin at outcome
      rw [run_get_bind] at outcome
      cases cached : before.cached? path with
      | some id =>
          simp only [cached] at outcome
          cases outcome
          refine ReflTransGen.single ?_
          simp [step, Loader.look, cached, become]
      | none =>
          simp only [cached] at outcome
          refine ReflTransGen.head ?_
            (steps_loadFresh inductionHypothesis outcome waiting name)
          simp [step, Loader.look, cached, become]

theorem follows_load : Follows Loading.load := by
  intro path before result after outcome
  unfold Loading.load at outcome
  rw [run_get_bind] at outcome
  exact follows_loadWithin _ path before result after outcome

/-! ## Operations -/

theorem steps_answerLoading
    {loader after : Loader}
    {name : Option String}
    {action : Loading Value}
    {answer : Answer}
    (performed : loader.answerLoading name action = some (answer, after)) :
    ∃ result between,
      action.run loader = some (result, between) ∧
        between.conclude name result = (answer, after) := by
  rw [Loader.answerLoading_eq] at performed
  obtain ⟨⟨result, between⟩, ran, concluded⟩ :=
    Option.map_eq_some_iff.mp performed
  exact ⟨result, between, ran, concluded⟩

/-- What an operation answers is where its run comes to rest. -/
theorem steps_perform
    {loader after : Loader}
    {operation : Operation}
    {answer : Answer}
    (performed : loader.perform operation = some (answer, after)) :
    ∃ first,
      begin loader operation = some first ∧
        Steps first ⟨.resting answer, [], none, after⟩ := by
  cases operation with
  | requireFrom context specifier name =>
      obtain ⟨result, between, ran, concluded⟩ := steps_answerLoading performed
      refine ⟨_, rfl, (steps_require follows_load ran [] name).tail ?_⟩
      simp [step, concluded]
  | requireModule path name =>
      cases path with
      | none =>
          obtain ⟨result, between, ran, concluded⟩ :=
            steps_answerLoading performed
          rw [run_newObject] at ran
          cases ran
          refine ⟨_, rfl, ReflTransGen.single ?_⟩
          simp [step, concluded]
      | some path =>
          obtain ⟨result, between, ran, concluded⟩ :=
            steps_answerLoading performed
          refine ⟨_, rfl,
            (follows_load path loader result between ran [] name).tail ?_⟩
          simp [step, concluded]
  | _ =>
      refine ⟨⟨.resting answer, [], none, after⟩, ?_, ReflTransGen.refl⟩
      simp only [begin, performed, Option.map_some]

end Moment

/-- The loaders that a sequence of operations leads to. -/
inductive Loader.Reaches (start : Loader) : Loader → Prop
  | start : Reaches start start
  | perform {loader after : Loader} {operation : Operation} {answer : Answer} :
      Reaches start loader → loader.perform operation = some (answer, after) →
      Reaches start after

/-- A loader that operations lead to is at rest at the end of a run. -/
theorem Loader.Reaches.run
    {start loader : Loader}
    (reaches : start.Reaches loader) :
    ∃ past answer,
      Moment.Run (.initial start) past ⟨.resting answer, [], none, loader⟩ := by
  induction reaches with
  | start => exact ⟨[], .done, .start⟩
  | perform _ performed inductionHypothesis =>
      obtain ⟨past, answer, run⟩ := inductionHypothesis
      obtain ⟨first, begun, steps⟩ := Moment.steps_perform performed
      obtain ⟨since, run⟩ :=
        (run.next (.operation answer _ rfl begun)).ofSteps steps
      exact ⟨since, _, run⟩

end CommonJs
