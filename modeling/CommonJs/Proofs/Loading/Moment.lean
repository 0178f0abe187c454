import CommonJs.Module.Operation
import Mathlib.Logic.Relation

/-!
# The moments of a run

A run of a loader is a sequence of moments. Each moment says what is to be
done next, which bodies wait for a module they asked for, and what the loader
holds. The definitions of the loader go from the beginning of a load to its
end at once; here every record that is opened, every instruction of a body
and every load that ends is a step of its own, to any depth. The open loads
of a moment are those of the waiting bodies and the one that is under way.
-/

namespace CommonJs

/-- A body that waits for a module it asked for: the variable for the module,
whether a failure is caught, and the instructions that are left. -/
structure Waiting where
  /-- The body. -/
  frame : Frame
  /-- What the name `exports` stands for in it. -/
  exports : Value
  /-- The variable that the module is put under. -/
  name : String
  /-- Whether a failure is noted instead of passed on. -/
  catches : Bool
  /-- The instructions that are left. -/
  rest : Script

/-- What a run does next. -/
inductive Phase
  /-- Nothing, for the last operation has its answer. -/
  | resting (answer : Answer)
  /-- Resolve a specifier that a body or an operation asks for. -/
  | requesting (context : Path) (specifier : String) (origin : Option Path)
  /-- Look for the record of a file. -/
  | loading (path : Path)
  /-- Read the file of a new record. -/
  | opened (id : Nat) (filename : Path)
  /-- Carry out the instructions of a body. -/
  | running (frame : Frame) (exports : Value) (rest : Script)
  /-- Complete a record or take it away. -/
  | closing (id : Nat) (filename : Path) (outcome : Except LoadError Unit)
  /-- Hand the exports of a module to who asked for it. -/
  | returning (outcome : Except LoadError Value)

/-- A load that has begun and not ended: its record and its file. -/
structure OpenLoad where
  /-- The record of the module. -/
  record : Nat
  /-- The file that is loaded. -/
  filename : Path
  deriving DecidableEq

/-- A moment of a run. The waiting bodies are listed innermost first, and
`name` is the variable that the operation under way sets. -/
structure Moment where
  /-- What is done next. -/
  phase : Phase
  /-- The bodies that wait, innermost first. -/
  waiting : List Waiting
  /-- The variable for the result, if an operation sets one. -/
  name : Option String
  /-- The state of the loader. -/
  loader : Loader

/-- The load of the body that waits. -/
def Waiting.openLoad (waiting : Waiting) : OpenLoad :=
  ⟨waiting.frame.record, waiting.frame.filename⟩

/-- The innermost load, unless it has just ended or is only asked for. -/
def Phase.openLoad? : Phase → Option OpenLoad
  | .opened id filename => some ⟨id, filename⟩
  | .running frame _ _ => some ⟨frame.record, frame.filename⟩
  | .closing id filename _ => some ⟨id, filename⟩
  | _ => none

/-- The loads on the call stack, innermost first. -/
def Moment.openLoads (moment : Moment) : List OpenLoad :=
  moment.phase.openLoad?.toList ++ moment.waiting.map Waiting.openLoad

/-! ## Single steps -/

/-- The error of a load whose body ended with an error. -/
def BodyError.loadError (filename : Path) : BodyError → LoadError
  | .stopped failure => .evaluation filename failure
  | .uncaught error => error

/-- What a body does after an instruction: it goes on with the rest, or its
load ends. -/
def Frame.next (frame : Frame) (rest : Script) : Except BodyError Value → Phase
  | .ok exports => .running frame exports rest
  | .error error =>
      .closing frame.record frame.filename
        (.error (error.loadError frame.filename))

/-- What an instruction asks for: the specifier, the variable for the module,
and whether a failure is caught. -/
def Instr.request? : Instr → Option (String × String × Bool)
  | .require specifier name => some (specifier, name, false)
  | .tryRequire specifier name => some (specifier, name, true)
  | _ => none

namespace Loader

/-- Resolve a specifier and go on with its file, if it leads to one. -/
def request
    (loader : Loader)
    (context : Path)
    (specifier : String)
    (origin : Option Path) : Option (Phase × Loader) :=
  match loader.resolver.resolve loader.memo context specifier origin with
  | none => none
  | some (result, memo) =>
      let loader := { loader with memo }
      match result.resolution with
      | .path path => some (.loading path, loader)
      | .stub => some (.returning (.ok loader.newObject.1), loader.newObject.2)
      | .unresolved _ =>
          some (.returning (.error (.notFound specifier context result.tried)),
            loader)

/-- Give the exports of the record of a file, or open a record for it. -/
def look (loader : Loader) (path : Path) : Phase × Loader :=
  match loader.cached? path with
  | some id => (.returning (.ok (loader.exportsOf id)), loader)
  | none =>
      let filename := loader.resolver.fileSystem.canonicalize path
      let opened := loader.openRecord filename
      (.opened opened.1 filename, opened.2)

/-- Read the file of a new record, and take its data or begin its body. -/
def start (loader : Loader) (id : Nat) (filename : Path) : Phase × Loader :=
  let record : ModuleRecord := ⟨filename, loader.exportsOf id, false⟩
  match loader.resolver.fileSystem.read filename with
  | .error failure =>
      (.closing id filename (.error (.unreadable filename failure)), loader)
  | .ok source =>
      if Loading.isData filename then
        match Json.ofText? source with
        | none =>
            (.closing id filename (.error (.malformedJson filename)), loader)
        | some json =>
            let (value, heap) := loader.workspace.heap.ofJson json
            (.closing id filename (.ok ()),
              Loader.setExports
                { loader with workspace := { loader.workspace with heap } }
                id value)
      else
        let loader := loader.emit (.run filename source)
        match loader.bodies.lookup source with
        | none =>
            (.closing id filename
              (.error (.evaluation filename
                (.malformed ("unknown body '" ++ source ++ "'")))),
              loader)
        | some body =>
            let run := (loader.runs[source]?).getD 0 + 1
            (.running ⟨id, filename, record.dirname, run⟩ record.exports body,
              { loader with runs := loader.runs.insert source run })

/-- Carry out an instruction that asks for no module. -/
def advance
    (loader : Loader)
    (frame : Frame)
    (exports : Value)
    (instr : Instr)
    (rest : Script) : Option (Phase × Loader) :=
  ((Running.instr (fun _ => Loading.exhausted) frame exports instr).run
      loader).map
    fun outcome => (frame.next rest outcome.1, outcome.2)

/-- End a load: the record is complete, or it leaves the cache. -/
def close
    (loader : Loader)
    (id : Nat)
    (filename : Path) :
    Except LoadError Unit → Phase × Loader
  | .ok _ =>
      let loader := loader.finishRecord id
      (.returning (.ok (loader.exportsOf id)), loader)
  | .error error => (.returning (.error error), loader.dropRecord filename id)

/-- Give a waiting body what it asked for. -/
def resume
    (loader : Loader)
    (waiting : Waiting) : Except LoadError Value → Phase × Loader
  | .ok value =>
      (.running waiting.frame waiting.exports waiting.rest,
        loader.assign waiting.name value)
  | .error error =>
      if waiting.catches then
        (.running waiting.frame waiting.exports waiting.rest,
          ((loader.emit (.caught error)).assign waiting.name .undefined).assign
            "err" (.string error.message))
      else (.closing waiting.frame.record waiting.frame.filename
        (.error error), loader)

/-- The answer to an operation that loads, and the loader with the variable
for the value set. -/
def conclude
    (loader : Loader)
    (name : Option String) :
    Except LoadError Value → Answer × Loader
  | .ok value =>
      (.value value, name.elim loader fun name => loader.assign name value)
  | .error error => (.error error, loader)

end Loader

namespace Moment

/-- The moment with another phase and another loader. -/
def become (moment : Moment) (next : Phase × Loader) : Moment :=
  { moment with phase := next.1, loader := next.2 }

/-- The moment after this one. There is none when the loader rests, or when a
specifier has no resolution at all. -/
def step (moment : Moment) : Option Moment :=
  match moment.phase with
  | .resting _ => none
  | .requesting context specifier origin =>
      (moment.loader.request context specifier origin).map moment.become
  | .loading path => some (moment.become (moment.loader.look path))
  | .opened id filename =>
      some (moment.become (moment.loader.start id filename))
  | .running frame _ [] =>
      some (moment.become
        (.closing frame.record frame.filename (.ok ()), moment.loader))
  | .running frame exports (first :: rest) =>
      match first.request? with
      | some (specifier, name, catches) =>
          some
            { moment with
              phase := .requesting frame.dirname specifier (some frame.dirname)
              waiting :=
                ⟨frame, exports, name, catches, rest⟩ :: moment.waiting }
      | none =>
          (moment.loader.advance frame exports first rest).map moment.become
  | .closing id filename outcome =>
      some (moment.become (moment.loader.close id filename outcome))
  | .returning outcome =>
      match moment.waiting with
      | waiting :: others =>
          some ({ moment with waiting := others }.become
            (moment.loader.resume waiting outcome))
      | [] =>
          let concluded := moment.loader.conclude moment.name outcome
          some ⟨.resting concluded.1, [], none, concluded.2⟩

/-- The first moment of an operation. Operations that load nothing are over
at once. -/
def begin (loader : Loader) : Operation → Option Moment
  | .requireFrom context specifier name =>
      some ⟨.requesting context specifier none, [], name, loader⟩
  | .requireModule (some path) name => some ⟨.loading path, [], name, loader⟩
  | .requireModule none name =>
      some ⟨.returning (.ok loader.newObject.1), [], name, loader.newObject.2⟩
  | operation =>
      (loader.perform operation).map fun outcome =>
        ⟨.resting outcome.1, [], none, outcome.2⟩

/-- The moment so many steps later within one operation. -/
def after : Nat → Moment → Option Moment
  | 0, moment => some moment
  | count + 1, moment => moment.step.bind (after count)

/-- A loader before its first operation. -/
def initial (loader : Loader) : Moment := ⟨.resting .done, [], none, loader⟩

/-- One moment follows another by a step, or by an operation that a resting
loader is given. -/
inductive Next (moment next : Moment) : Prop
  | step : moment.step = some next → Next moment next
  | operation (answer : Answer) (operation : Operation) :
      moment.phase = .resting answer →
      begin moment.loader operation = some next →
      Next moment next

/-- Any number of steps within one operation. -/
abbrev Steps : Moment → Moment → Prop :=
  Relation.ReflTransGen fun moment next => moment.step = some next

theorem steps_of_after
    {count : Nat}
    {moment next : Moment}
    (reaches : moment.after count = some next) : Steps moment next := by
  induction count generalizing moment with
  | zero =>
      obtain rfl := Option.some.inj reaches
      exact .refl
  | succ count inductionHypothesis =>
      obtain ⟨between, stepped, reaches⟩ := Option.bind_eq_some_iff.mp reaches
      exact .head stepped (inductionHypothesis reaches)

/-- A run that has come to a moment, with the moments before it, the latest
first. -/
inductive Run (start : Moment) : List Moment → Moment → Prop
  | start : Run start [] start
  | next {past : List Moment} {moment next : Moment} :
      Run start past moment → Next moment next → Run start (moment :: past) next

namespace Run

variable {start moment next : Moment} {past : List Moment}

theorem append
    {later : Moment}
    {since : List Moment}
    (run : Run start past moment)
    (continues : Run moment since later) : Run start (since ++ past) later := by
  induction continues with
  | start => exact run
  | next _ next inductionHypothesis => exact inductionHypothesis.next next

theorem ofSteps
    (run : Run start past moment)
    (steps : Steps moment next) : ∃ since, Run start since next := by
  induction steps with
  | refl => exact ⟨past, run⟩
  | tail _ stepped inductionHypothesis =>
      obtain ⟨since, run⟩ := inductionHypothesis
      exact ⟨_, run.next (.step stepped)⟩

theorem ofAfter
    {count : Nat}
    (run : Run start past moment)
    (reaches : moment.after count = some next) :
    ∃ since, Run start since next :=
  run.ofSteps (steps_of_after reaches)

end Run
end Moment
end CommonJs
