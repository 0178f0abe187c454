import CommonJs.Proofs.Loading.Actions
import CommonJs.Proofs.Loading.Moment

/-!
# What single instructions and steps do

An instruction that asks for no module evaluates an expression, changes a
variable or a cell, asks where a module is, sets what the module exports, or
notes something. What it can do to a loader is listed here once, with the
outcome it has, and so is what comes of a request, of reading a file and of
waking a body, what a step of a run can be, and how an operation begins. What
holds before and after any of them is then read off the lists.
-/

namespace CommonJs

namespace Loader

/-- The value of an expression in a body, and the loader after it. -/
def evalIn
    (loader : Loader)
    (frame : Frame)
    (exports : Value)
    (expr : Expr) : Value × Loader :=
  let scope := Running.scopeOf loader frame exports
  let (value, workspace) :=
    loader.workspace.eval loader.globals (some scope) expr
  (value, { loader with workspace })

/-- Whether a change in a body is made, and the loader after it. -/
def changeIn
    (loader : Loader)
    (frame : Frame)
    (exports : Value)
    (change : Change) : Bool × Loader :=
  let scope := Running.scopeOf loader frame exports
  let (done, workspace) :=
    change.run loader.globals (some scope) loader.workspace
  (done, { loader with workspace })

end Loader

/-- What is noted about a file that was looked for. -/
def Event.ofLocated : Except LoadError (Option Path) → Event
  | .ok path => .resolved path
  | .error error => .caught error

/-- What an instruction that asks for no module ends with, and the loader that
it leaves: the body goes on with a value for `exports`, or it stops. -/
inductive Effect
    (frame : Frame)
    (exports : Value)
    (before : Loader) : Instr → Except BodyError Value → Loader → Prop
  | change (change : Change) :
      Effect frame exports before (.change change)
        (if (before.changeIn frame exports change).1 then .ok exports
          else .error (.stopped (.thrown (change.word ++ ": wrong target"))))
        (before.changeIn frame exports change).2
  | resolve {specifier : String} (name : String) {found : ResolveResult}
      {memo : DescriptorMemo} {path : Option Path} :
      before.resolver.resolve before.memo frame.dirname specifier
          (some frame.dirname) =
        some (found, memo) →
      found.located frame.dirname specifier = .ok path →
      Effect frame exports before (.resolve specifier name) (.ok exports)
        (Loader.assign { before with memo } name (Running.valueOfPath path))
  | unresolved {specifier : String} (name : String) {found : ResolveResult}
      {memo : DescriptorMemo} {error : LoadError} :
      before.resolver.resolve before.memo frame.dirname specifier
          (some frame.dirname) =
        some (found, memo) →
      found.located frame.dirname specifier = .error error →
      Effect frame exports before (.resolve specifier name)
        (.error (.uncaught error)) { before with memo }
  | tryResolve {specifier : String} {found : ResolveResult}
      {memo : DescriptorMemo} {located : Except LoadError (Option Path)} :
      before.resolver.resolve before.memo frame.dirname specifier
          (some frame.dirname) =
        some (found, memo) →
      found.located frame.dirname specifier = located →
      Effect frame exports before (.tryResolve specifier) (.ok exports)
        (Loader.emit { before with memo } (.ofLocated located))
  | setExports (expr : Expr) :
      Effect frame exports before (.setExports expr) (.ok exports)
        ((before.evalIn frame exports expr).2.setExports frame.record
          (before.evalIn frame exports expr).1)
  | rebind (expr : Expr) :
      Effect frame exports before (.rebind expr)
        (.ok (before.evalIn frame exports expr).1)
        (before.evalIn frame exports expr).2
  | log (expr : Expr) :
      Effect frame exports before (.log expr) (.ok exports)
        ((before.evalIn frame exports expr).2.emit
          (.logged ((before.evalIn frame exports expr).2.workspace.heap.text
            (before.evalIn frame exports expr).1)))
  | throwValue (expr : Expr) :
      Effect frame exports before (.throwValue expr)
        (.error (.stopped (.thrown
          (Running.thrownText
            (before.evalIn frame exports expr).2.workspace.heap
              (before.evalIn frame exports expr).1))))
        (before.evalIn frame exports expr).2
  | stop (first : Instr) (failure : Failure) :
      Effect frame exports before first (.error (.stopped failure)) before
  | goOn (first : Instr) :
      Effect frame exports before first (.ok exports) before

section Instructions

variable {load : Path → Loading Value} {frame : Frame} {exports : Value}
  {first : Instr}

theorem run_change (change : Change) (loader : Loader) :
    (Running.instr load frame exports (.change change)).run loader =
      some
        (if (loader.changeIn frame exports change).1 then .ok exports
          else .error (.stopped (.thrown (change.word ++ ": wrong target"))),
        (loader.changeIn frame exports change).2) := by
  have ran : (Running.change frame exports change).run loader =
      some
        (if (loader.changeIn frame exports change).1 then .ok ()
          else .error (.stopped (.thrown (change.word ++ ": wrong target"))),
        (loader.changeIn frame exports change).2) := by
    unfold Running.change Loader.changeIn
    rw [run_get_bind]
    dsimp only
    cases (change.run loader.globals
      (some (Running.scopeOf loader frame exports)) loader.workspace).1 <;> rfl
  rw [Running.instr, run_bind, ran, Option.bind_some]
  cases (loader.changeIn frame exports change).1 <;> rfl

/-- The instructions that ask for no module do nothing but what is listed. -/
theorem effect_of_run
    (noRequest : first.request? = none)
    {before after : Loader}
    {result : Except BodyError Value}
    (outcome : (Running.instr load frame exports first).run before =
      some (result, after)) :
    Effect frame exports before first result after := by
  cases first with
  | change change =>
      rw [run_change] at outcome
      cases outcome
      exact .change change
  | require specifier name => cases noRequest
  | tryRequire specifier name => cases noRequest
  | resolve specifier name =>
      rcases run_bind_eq_some outcome with ⟨error, failed, rfl⟩ |
        ⟨path, between, ran, assigned⟩
      · obtain ⟨given, located, isError⟩ := run_uncaught_eq_some failed
        obtain ⟨found, memo, resolved, rfl, rfl⟩ := run_locate_eq_some located
        cases isLocated : found.located frame.dirname specifier with
        | ok path =>
            rw [isLocated] at isError
            cases isError
        | error failure =>
            rw [isLocated] at isError
            obtain rfl := Except.error.inj isError
            exact .unresolved name resolved isLocated
      · obtain ⟨given, located, isOk⟩ := run_uncaught_eq_some ran
        obtain ⟨found, memo, resolved, rfl, rfl⟩ := run_locate_eq_some located
        cases assigned
        cases isLocated : found.located frame.dirname specifier with
        | ok path =>
            rw [isLocated] at isOk
            obtain rfl := Except.ok.inj isOk
            exact .resolve name resolved isLocated
        | error failure =>
            rw [isLocated] at isOk
            cases isOk
  | tryResolve specifier =>
      rcases run_bind_eq_some outcome with ⟨error, failed, _⟩ |
        ⟨path, between, ran, emitted⟩
      · obtain ⟨_, _, isOk⟩ := run_attempt_eq_some failed
        cases isOk
      · obtain ⟨given, located, isOk⟩ := run_attempt_eq_some ran
        obtain ⟨found, memo, resolved, rfl, rfl⟩ := run_locate_eq_some located
        obtain rfl := Except.ok.inj isOk
        cases isLocated : found.located frame.dirname specifier with
        | ok path =>
            rw [isLocated] at emitted
            cases emitted
            exact .tryResolve resolved isLocated
        | error failure =>
            rw [isLocated] at emitted
            cases emitted
            exact .tryResolve resolved isLocated
  | setExports expr =>
      cases outcome
      exact .setExports expr
  | rebind expr =>
      cases outcome
      exact .rebind expr
  | log expr =>
      cases outcome
      exact .log expr
  | throwText text =>
      cases outcome
      exact .stop _ _
  | throwValue expr =>
      cases outcome
      exact .throwValue expr
  | malformed message =>
      cases outcome
      exact .stop _ _
  | failFirst count =>
      by_cases early : frame.run ≤ count
      · rw [Running.instr, if_pos early] at outcome
        cases outcome
        exact .stop _ _
      · rw [Running.instr, if_neg early] at outcome
        cases outcome
        exact .goOn _

end Instructions

/-! ## Requests, new records and bodies that go on -/

namespace Loader

/-- What a request leads to: the load of a file, a new object, or a failure. -/
inductive Requested
    (loader : Loader)
    (context : Path)
    (specifier : String)
    (origin : Option Path) : Phase × Loader → Prop
  | path {found : ResolveResult} {memo : DescriptorMemo} {path : Path} :
      loader.resolver.resolve loader.memo context specifier origin =
        some (found, memo) →
      found.resolution = .path path →
      Requested loader context specifier origin
        (.loading path, { loader with memo })
  | stub {found : ResolveResult} {memo : DescriptorMemo} :
      loader.resolver.resolve loader.memo context specifier origin =
        some (found, memo) →
      found.resolution = .stub →
      Requested loader context specifier origin
        (.returning (.ok (newObject { loader with memo }).1),
          (newObject { loader with memo }).2)
  | unresolved {found : ResolveResult} {memo : DescriptorMemo}
      {reason : Reason} :
      loader.resolver.resolve loader.memo context specifier origin =
        some (found, memo) →
      found.resolution = .unresolved reason →
      Requested loader context specifier origin
        (.returning (.error (.notFound specifier context found.tried)),
          { loader with memo })

theorem requested_of_request
    {loader : Loader}
    {context : Path}
    {specifier : String}
    {origin : Option Path}
    {after : Phase × Loader}
    (requested : loader.request context specifier origin = some after) :
    loader.Requested context specifier origin after := by
  unfold request at requested
  cases resolved : loader.resolver.resolve loader.memo context specifier
    origin with
  | none =>
      rw [resolved] at requested
      cases requested
  | some answer =>
      obtain ⟨found, memo⟩ := answer
      rw [resolved] at requested
      cases resolution : found.resolution with
      | path path =>
          simp only [resolution, Option.some.injEq] at requested
          exact requested ▸ .path resolved resolution
      | stub =>
          simp only [resolution, Option.some.injEq] at requested
          exact requested ▸ .stub resolved resolution
      | unresolved reason =>
          simp only [resolution, Option.some.injEq] at requested
          exact requested ▸ .unresolved resolved resolution

/-- What comes of reading the file of a new record: a failure, data, or a body
that begins. -/
inductive Started
    (loader : Loader)
    (id : Nat)
    (filename : Path) : Phase × Loader → Prop
  | unreadable {failure : ReadFailure} :
      loader.resolver.fileSystem.read filename = .error failure →
      Started loader id filename
        (.closing id filename (.error (.unreadable filename failure)), loader)
  | malformed {source : String} :
      loader.resolver.fileSystem.read filename = .ok source →
      Loading.isData filename = true →
      Started loader id filename
        (.closing id filename (.error (.malformedJson filename)), loader)
  | data {source : String} (json : Json) :
      loader.resolver.fileSystem.read filename = .ok source →
      Loading.isData filename = true →
      Started loader id filename
        (.closing id filename (.ok ()),
          setExports
            { loader with
              workspace := { loader.workspace with
                heap := (loader.workspace.heap.ofJson json).2 } }
            id (loader.workspace.heap.ofJson json).1)
  | unknown {source : String} :
      loader.resolver.fileSystem.read filename = .ok source →
      Loading.isData filename = false →
      loader.bodies.lookup source = none →
      Started loader id filename
        (.closing id filename
          (.error (.evaluation filename
            (.malformed ("unknown body '" ++ source ++ "'")))),
          loader.emit (.run filename source))
  | body {source : String} {body : Script} (frame : Frame)
      (runs : Std.TreeMap String Nat) :
      loader.resolver.fileSystem.read filename = .ok source →
      Loading.isData filename = false →
      loader.bodies.lookup source = some body →
      frame.record = id →
      frame.filename = filename →
      Started loader id filename
        (.running frame (loader.exportsOf id) body,
          { loader.emit (.run filename source) with runs })

theorem started (loader : Loader) (id : Nat) (filename : Path) :
    loader.Started id filename (loader.start id filename) := by
  unfold start
  cases contents : loader.resolver.fileSystem.read filename with
  | error failure => exact .unreadable contents
  | ok source =>
      cases data : Loading.isData filename with
      | true =>
          simp only [if_true]
          cases parsed : Json.ofText? source with
          | none => exact .malformed contents data
          | some json => exact .data json contents data
      | false =>
          cases named : loader.bodies.lookup source with
          | none =>
              have unknown :
                  (loader.emit (.run filename source)).bodies.lookup source =
                    none := named
              simp only [unknown]
              exact .unknown contents data named
          | some body =>
              have known :
                  (loader.emit (.run filename source)).bodies.lookup source =
                    some body := named
              simp only [known]
              exact .body _ _ contents data named rfl rfl

/-- What becomes of a body that gets what it asked for: it goes on with the
module or with the failure that it catches, or the failure ends it. -/
inductive Resumed (loader : Loader) (waiting : Waiting) :
    Except LoadError Value → Phase × Loader → Prop
  | given (value : Value) :
      Resumed loader waiting (.ok value)
        (.running waiting.frame waiting.exports waiting.rest,
          loader.assign waiting.name value)
  | caught (error : LoadError) :
      waiting.catches = true →
      Resumed loader waiting (.error error)
        (.running waiting.frame waiting.exports waiting.rest,
          ((loader.emit (.caught error)).assign waiting.name .undefined).assign
            "err" (.string error.message))
  | uncaught (error : LoadError) :
      waiting.catches = false →
      Resumed loader waiting (.error error)
        (.closing waiting.frame.record waiting.frame.filename
          (.error error), loader)

theorem resumed
    (loader : Loader)
    (waiting : Waiting)
    (outcome : Except LoadError Value) :
    loader.Resumed waiting outcome (loader.resume waiting outcome) := by
  cases outcome with
  | ok value => exact .given value
  | error error =>
      unfold resume
      cases catches : waiting.catches with
      | true => exact .caught error catches
      | false => exact .uncaught error catches

end Loader

namespace Moment

/-- The ways in which a moment leads to the next within an operation. -/
inductive Stepped (moment : Moment) : Moment → Prop
  | request {context : Path} {specifier : String} {origin : Option Path}
      {after : Phase × Loader} :
      moment.phase = .requesting context specifier origin →
      moment.loader.Requested context specifier origin after →
      Stepped moment (moment.become after)
  | look (path : Path) :
      moment.phase = .loading path →
        Stepped moment (moment.become (moment.loader.look path))
  | start {id : Nat} {filename : Path} {after : Phase × Loader} :
      moment.phase = .opened id filename →
      moment.loader.Started id filename after →
      Stepped moment (moment.become after)
  | finish (frame : Frame) (exports : Value) :
      moment.phase = .running frame exports [] →
      Stepped moment
        (moment.become
          (.closing frame.record frame.filename (.ok ()), moment.loader))
  | ask {frame : Frame} {exports : Value} {first : Instr} {rest : Script}
      {specifier name : String} {catches : Bool} :
      moment.phase = .running frame exports (first :: rest) →
      first.request? = some (specifier, name, catches) →
      Stepped moment
        { moment with
          phase := .requesting frame.dirname specifier (some frame.dirname)
          waiting := ⟨frame, exports, name, catches, rest⟩ :: moment.waiting }
  | instr {frame : Frame} {exports : Value} {first : Instr} {rest : Script}
      {result : Except BodyError Value} {after : Loader} :
      moment.phase = .running frame exports (first :: rest) →
      first.request? = none →
      (Running.instr (fun _ => Loading.exhausted) frame exports first).run
          moment.loader =
        some (result, after) →
      Effect frame exports moment.loader first result after →
      Stepped moment (moment.become (frame.next rest result, after))
  | close (id : Nat) (filename : Path) (outcome : Except LoadError Unit) :
      moment.phase = .closing id filename outcome →
      Stepped moment (moment.become (moment.loader.close id filename outcome))
  | resume {outcome : Except LoadError Value} {waiting : Waiting}
      {others : List Waiting} {after : Phase × Loader} :
      moment.phase = .returning outcome →
      moment.waiting = waiting :: others →
      moment.loader.Resumed waiting outcome after →
      Stepped moment ({ moment with waiting := others }.become after)
  | conclude (outcome : Except LoadError Value) :
      moment.phase = .returning outcome →
      moment.waiting = [] →
      Stepped moment
        ⟨.resting (moment.loader.conclude moment.name outcome).1, [], none,
          (moment.loader.conclude moment.name outcome).2⟩

theorem stepped_of_step
    {moment next : Moment}
    (stepped : moment.step = some next) : Stepped moment next := by
  obtain ⟨phase, waiting, name, loader⟩ := moment
  cases phase with
  | resting answer => cases stepped
  | requesting context specifier origin =>
      obtain ⟨after, requested, rfl⟩ := Option.map_eq_some_iff.mp stepped
      exact .request rfl (Loader.requested_of_request requested)
  | loading path =>
      obtain rfl := Option.some.inj stepped
      exact .look path rfl
  | opened id filename =>
      obtain rfl := Option.some.inj stepped
      exact .start rfl (loader.started id filename)
  | running frame exports rest =>
      cases rest with
      | nil =>
          obtain rfl := Option.some.inj stepped
          exact .finish frame exports rfl
      | cons first rest =>
          cases requests : first.request? with
          | some request =>
              simp only [step, requests, Option.some.injEq] at stepped
              subst stepped
              exact .ask rfl requests
          | none =>
              simp only [step, requests] at stepped
              obtain ⟨_, advanced, rfl⟩ := Option.map_eq_some_iff.mp stepped
              obtain ⟨⟨result, after⟩, ran, rfl⟩ :=
                Option.map_eq_some_iff.mp advanced
              exact .instr rfl requests ran (effect_of_run requests ran)
  | closing id filename outcome =>
      obtain rfl := Option.some.inj stepped
      exact .close id filename outcome rfl
  | returning outcome =>
      cases waiting with
      | nil =>
          obtain rfl := Option.some.inj stepped
          exact .conclude outcome rfl rfl
      | cons waiting others =>
          obtain rfl := Option.some.inj stepped
          exact .resume rfl rfl (loader.resumed waiting outcome)

/-- How an operation begins: those that load nothing are over at once. -/
inductive Begun (loader : Loader) : Operation → Moment → Prop
  | requireFrom (context : Path) (specifier : String) (name : Option String) :
      Begun loader (.requireFrom context specifier name)
        ⟨.requesting context specifier none, [], name, loader⟩
  | requireModule (path : Path) (name : Option String) :
      Begun loader (.requireModule (some path) name)
        ⟨.loading path, [], name, loader⟩
  | requireNothing (name : Option String) :
      Begun loader (.requireModule none name)
        ⟨.returning (.ok loader.newObject.1), [], name, loader.newObject.2⟩
  | resolveFrom {context : Path} {specifier : String} {origin : Option Path}
      {found : ResolveResult} {memo : DescriptorMemo} :
      loader.resolver.resolve loader.memo context specifier origin =
        some (found, memo) →
      Begun loader (.resolveFrom context specifier origin)
        ⟨.resting (.resolution found.resolution), [], none,
          { loader with memo }⟩
  | setNothing {path : Path} (expr : Expr) :
      loader.cached? path = none →
      Begun loader (.setExports path expr)
        ⟨.resting (.flag false), [], none, loader⟩
  | setExports {path : Path} {id : Nat} (expr : Expr) :
      loader.cached? path = some id →
      Begun loader (.setExports path expr)
        ⟨.resting (.flag true), [], none,
          (loader.eval expr).2.setExports id (loader.eval expr).1⟩
  | withConfig (config : ResolverConfig) :
      Begun loader (.withConfig config)
        ⟨.resting .done, [], none,
          { loader with
            resolver := { loader.resolver with config }, memo := .empty }⟩
  | withGlobal (name : String) (expr : Expr) :
      Begun loader (.withGlobal name expr)
        ⟨.resting .done, [], none,
          { (loader.eval expr).2 with
            globals :=
              (loader.eval expr).2.globals.insert name (loader.eval expr).1 }⟩
  | change (change : Change) :
      Begun loader (.change change)
        ⟨.resting (.flag (change.run loader.globals none loader.workspace).1),
          [], none,
          { loader with
            workspace := (change.run loader.globals none loader.workspace).2 }⟩
  | eval (expr : Expr) :
      Begun loader (.eval expr)
        ⟨.resting (.value (loader.eval expr).1), [], none, (loader.eval expr).2⟩

theorem begun_of_begin
    {loader : Loader}
    {operation : Operation}
    {first : Moment}
    (begun : begin loader operation = some first) :
    Begun loader operation first := by
  cases operation with
  | requireFrom context specifier name =>
      obtain rfl := Option.some.inj begun
      exact .requireFrom context specifier name
  | requireModule path name =>
      cases path with
      | none =>
          obtain rfl := Option.some.inj begun
          exact .requireNothing name
      | some path =>
          obtain rfl := Option.some.inj begun
          exact .requireModule path name
  | resolveFrom context specifier origin =>
      obtain ⟨⟨answer, after⟩, performed, rfl⟩ :=
        Option.map_eq_some_iff.mp begun
      obtain ⟨⟨found, memo⟩, resolved, answered⟩ :=
        Option.bind_eq_some_iff.mp performed
      cases answered
      exact .resolveFrom resolved
  | setExports path expr =>
      obtain ⟨⟨answer, after⟩, performed, rfl⟩ :=
        Option.map_eq_some_iff.mp begun
      simp only [Loader.perform] at performed
      cases cached : loader.cached? path with
      | none =>
          rw [cached] at performed
          cases performed
          exact .setNothing expr cached
      | some id =>
          rw [cached] at performed
          cases performed
          exact .setExports expr cached
  | withConfig config =>
      cases begun
      exact .withConfig config
  | withGlobal name expr =>
      cases begun
      exact .withGlobal name expr
  | change change =>
      cases begun
      exact .change change
  | eval expr =>
      cases begun
      exact .eval expr

end Moment
end CommonJs
