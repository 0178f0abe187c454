import CommonJs.Module.Error
import CommonJs.Resolver.Basic
import CommonJs.Script.Instr

/-!
# The loader

A module is one file. The first request for it makes a record, runs its body
and keeps the record, so that every later request gets the exports of the
same record. The record is there before the body runs: a module that is asked
for while it is loading gives what it exports so far. A record whose load
fails is taken away again, and the next request starts anew.

A body may ask for further modules. The definitions below are given the way
to load a file, and the last ones tie the knot for loads that are nested at
most so many deep.
-/

namespace CommonJs

/-- A module that is loaded or being loaded. -/
structure ModuleRecord where
  /-- The canonical path of the file. -/
  filename : Path
  /-- What the module gives to others now. -/
  exports : Value
  /-- Whether its body has run to the end. -/
  loaded : Bool

namespace ModuleRecord

/-- The directory of a module, from which its specifiers are resolved. -/
def dirname (record : ModuleRecord) : Path :=
  record.filename.parent.getD record.filename

end ModuleRecord

/-- What is noted while bodies run. -/
inductive Event
  | run (filename : Path) (source : String)
  | caught (error : LoadError)
  | resolved (path : Option Path)
  | logged (text : String)

/-- The state of a loader. A record is known by its position among all that
were ever made; the cache holds the one that stands for a file, and `loading`
the ones whose bodies are running, innermost first. -/
structure Loader where
  /-- How requests are resolved. -/
  resolver : Resolver
  /-- The script that each source names. -/
  bodies : List (String × Script)
  /-- What is known about the manifests of directories. -/
  memo : DescriptorMemo
  /-- What was put under a name for all scripts. -/
  globals : Std.TreeMap String Value
  /-- All modules that were ever begun. -/
  records : Array ModuleRecord
  /-- The record that stands for each file. -/
  cache : PathMap Nat
  /-- The records whose bodies are running, innermost first. -/
  loading : List Nat
  /-- The cells and variables that scripts change. -/
  workspace : Workspace
  /-- How often each body has been started. -/
  runs : Std.TreeMap String Nat
  /-- What was reported, in order. -/
  events : Array Event

namespace Loader

/-- A loader that has not loaded anything. -/
def new (resolver : Resolver) (bodies : List (String × Script)) : Loader where
  resolver := resolver
  bodies := bodies
  memo := .empty
  globals := ∅
  records := #[]
  cache := ∅
  loading := []
  workspace := .empty
  runs := ∅
  events := #[]

/-- The record of a number, if it was made. -/
def record? (loader : Loader) (id : Nat) : Option ModuleRecord :=
  loader.records[id]?

/-- What a record exports now. -/
def exportsOf (loader : Loader) (id : Nat) : Value :=
  ((loader.record? id).map (·.exports)).getD .undefined

/-- The record that stands for the file at a path. -/
def cached? (loader : Loader) (path : Path) : Option Nat :=
  loader.cache[(loader.resolver.fileSystem.canonicalize path).components]?

/-- A module gives another value to those that ask for it from now on. -/
def setExports (loader : Loader) (id : Nat) (value : Value) : Loader :=
  { loader with records := loader.records.modify id fun record =>
      { record with exports := value } }

/-- One more event is noted. -/
def emit (loader : Loader) (event : Event) : Loader :=
  { loader with events := loader.events.push event }

/-- A variable is set for all scripts. -/
def assign (loader : Loader) (name : String) (value : Value) : Loader :=
  { loader with workspace := loader.workspace.assign name value }

/-- A new object without fields. -/
def newObject (loader : Loader) : Value × Loader :=
  let (value, heap) := loader.workspace.heap.newObject
  (value, { loader with workspace := { loader.workspace with heap } })

/-- A new record for a canonical path, with an empty object as its exports. -/
def openRecord (loader : Loader) (filename : Path) : Nat × Loader :=
  let (exports, loader) := loader.newObject
  let id := loader.records.size
  (id,
    { loader with
      records := loader.records.push ⟨filename, exports, false⟩
      cache := loader.cache.insert filename.components id
      loading := id :: loader.loading })

/-- The record is complete. -/
def finishRecord (loader : Loader) (id : Nat) : Loader :=
  { loader with
    records := loader.records.modify id fun record =>
      { record with loaded := true }
    loading := loader.loading.tail }

/-- The record failed and leaves the cache, if it is still there. -/
def dropRecord (loader : Loader) (filename : Path) (id : Nat) : Loader :=
  { loader with
    cache :=
      if loader.cache[filename.components]? = some id then
        loader.cache.erase filename.components
      else loader.cache
    loading := loader.loading.tail }

end Loader

/-- An action of a loader that may fail. It has no outcome at all if
replacements or loads are nested too deep. -/
abbrev Loading := ExceptT LoadError (StateT Loader Option)

/-- What ends a body: a failure of its own, or one of a module it asked for
that it does not catch. -/
inductive BodyError
  | stopped (failure : Failure)
  | uncaught (error : LoadError)

/-- An action of a body. -/
abbrev Running := ExceptT BodyError (StateT Loader Option)

namespace Loading

/-- No outcome. -/
def exhausted : Loading α :=
  fun _ => none

/-- The outcome of an action, be it a failure. -/
def attempt (action : Loading α) : StateT Loader Option (Except LoadError α) :=
  action.run

/-- An action as part of a body that does not catch its failure. -/
def uncaught (action : Loading α) : Running α :=
  ExceptT.mk do
    match ← action.attempt with
    | .ok value => pure (.ok value)
    | .error error => pure (.error (.uncaught error))

/-- Resolve a specifier. -/
def resolve
    (context : Path)
    (specifier : String)
    (origin : Option Path) : Loading ResolveResult := do
  let loader ← get
  match loader.resolver.resolve loader.memo context specifier origin with
  | none => exhausted
  | some (result, memo) => do
      set { loader with memo }
      pure result

/-- A new object without fields. -/
def newObject : Loading Value := do
  let (value, loader) := (← get).newObject
  set loader
  pure value

/-- The exports of what a specifier asks for; a request for nothing gets a
new object. -/
def require
    (load : Path → Loading Value)
    (context : Path)
    (specifier : String)
    (origin : Option Path) : Loading Value := do
  let result ← resolve context specifier origin
  match result.resolution with
  | .path path => load path
  | .stub => newObject
  | .unresolved _ => throw (.notFound specifier context result.tried)

/-- The file that a specifier asks for, none for a request for nothing. -/
def locate
    (context : Path)
    (specifier : String)
    (origin : Option Path) : Loading (Option Path) := do
  let result ← resolve context specifier origin
  match result.resolution with
  | .path path => pure (some path)
  | .stub => pure none
  | .unresolved _ => throw (.notFound specifier context result.tried)

end Loading

/-- A running body: its record, where it lies, and how often this body has
been started. -/
structure Frame where
  /-- The record of the module. -/
  record : Nat
  /-- The file that holds the body. -/
  filename : Path
  /-- The directory of that file. -/
  dirname : Path
  /-- The number of this run of the body. -/
  run : Nat

namespace Running

/-- What a body sees of its module while `exports` is bound to a value. -/
def scopeOf (loader : Loader) (frame : Frame) (exports : Value) : Scope where
  exports := exports
  moduleExports := loader.exportsOf frame.record
  filename := frame.filename
  dirname := frame.dirname
  loaded := ((loader.record? frame.record).map (·.loaded)).getD false

/-- The value of an expression in a body. -/
def eval (frame : Frame) (exports : Value) (expr : Expr) : Running Value := do
  let loader ← get
  let scope := scopeOf loader frame exports
  let (value, workspace) :=
    loader.workspace.eval loader.globals (some scope) expr
  set { loader with workspace }
  pure value

/-- Carry out a change in a body. -/
def change
    (frame : Frame)
    (exports : Value)
    (change : Change) : Running Unit := do
  let loader ← get
  let scope := scopeOf loader frame exports
  let (done, workspace) :=
    change.run loader.globals (some scope) loader.workspace
  set { loader with workspace }
  if done then pure ()
  else throw (.stopped (.thrown (change.word ++ ": wrong target")))

/-- A body notes an event. -/
def emit (event : Event) : Running Unit :=
  modify fun loader => loader.emit event

/-- A body sets a variable. -/
def assign (name : String) (value : Value) : Running Unit :=
  modify fun loader => loader.assign name value

/-- The path of a located file as a value, null for a request for nothing. -/
def valueOfPath : Option Path → Value
  | some path => .string path.toString
  | none => .null

/-- The text that a thrown value stands for. -/
def thrownText (heap : Heap) : Value → String
  | .string text => text
  | value => heap.text value

/-- Carry out an instruction while `exports` is bound to a value, and return
the value it is bound to afterwards. -/
def instr
    (load : Path → Loading Value)
    (frame : Frame)
    (exports : Value) : Instr → Running Value
  | .change change => do
      Running.change frame exports change
      pure exports
  | .require specifier name => do
      let value ←
        (Loading.require load frame.dirname specifier
          (some frame.dirname)).uncaught
      assign name value
      pure exports
  | .tryRequire specifier name => do
      match ← (Loading.require load frame.dirname specifier
        (some frame.dirname)).attempt with
      | .ok value => assign name value
      | .error error =>
          emit (.caught error)
          assign name .undefined
          assign "err" (.string error.message)
      pure exports
  | .resolve specifier name => do
      let path
        ← (Loading.locate frame.dirname specifier (some frame.dirname)).uncaught
      assign name (valueOfPath path)
      pure exports
  | .tryResolve specifier => do
      match ← (Loading.locate frame.dirname specifier
        (some frame.dirname)).attempt with
      | .ok path => emit (.resolved path)
      | .error error => emit (.caught error)
      pure exports
  | .setExports expr => do
      let value ← eval frame exports expr
      modify fun loader => loader.setExports frame.record value
      pure exports
  | .rebind expr => eval frame exports expr
  | .log expr => do
      let value ← eval frame exports expr
      let loader ← get
      emit (.logged (loader.workspace.heap.text value))
      pure exports
  | .throwText text => throw (.stopped (.thrown text))
  | .throwValue expr => do
      let value ← eval frame exports expr
      let loader ← get
      throw (.stopped (.thrown (thrownText loader.workspace.heap value)))
  | .malformed message => throw (.stopped (.malformed message))
  | .failFirst count =>
      if frame.run ≤ count then
        throw (.stopped (.thrown ("run " ++ toString frame.run)))
      else pure exports

/-- Carry out the instructions of a body in order. -/
def script
    (load : Path → Loading Value)
    (frame : Frame) :
    Value → Script → Running Unit
  | _, [] => pure ()
  | exports, first :: rest => do
      let exports ← instr load frame exports first
      script load frame exports rest

/-- Run the body that a source names. Each start is noted and counted; a
source that names no body is malformed. -/
def execute
    (load : Path → Loading Value)
    (id : Nat)
    (record : ModuleRecord)
    (source : String) : Running Unit := do
  emit (.run record.filename source)
  let loader ← get
  match loader.bodies.lookup source with
  | none => throw (.stopped (.malformed ("unknown body '" ++ source ++ "'")))
  | some body => do
      let run := (loader.runs[source]?).getD 0 + 1
      set { loader with runs := loader.runs.insert source run }
      script load ⟨id, record.filename, record.dirname, run⟩ record.exports body

end Running

namespace Loading

/-- A file whose extension is `json`, in any case of letters, holds data. -/
def isData (filename : Path) : Bool :=
  match filename.extension with
  | some extension => extension.map Char.toLower = "json".toList
  | none => false

/-- Read the file of a record, and take its data or run its body. A failure
of the body itself names the file; one that the body did not catch stays as
it is. -/
def evaluate
    (load : Path → Loading Value)
    (id : Nat)
    (record : ModuleRecord) : Loading Unit := do
  let loader ← get
  match loader.resolver.fileSystem.read record.filename with
  | .error failure => throw (.unreadable record.filename failure)
  | .ok source =>
      if isData record.filename then
        match Json.ofText? source with
        | none => throw (.malformedJson record.filename)
        | some json =>
            let (value, heap) := loader.workspace.heap.ofJson json
            set
              (Loader.setExports
                { loader with workspace := { loader.workspace with heap } }
                id value)
      else
        match ← (Running.execute load id record source).run with
        | .ok _ => pure ()
        | .error (.uncaught error) => throw error
        | .error (.stopped failure) =>
            throw (.evaluation record.filename failure)

/-- The exports of a new record for a canonical path, once it is loaded. -/
def loadFresh
    (load : Path → Loading Value)
    (filename : Path) : Loading Value := do
  let (id, loader) := (← get).openRecord filename
  set loader
  let record : ModuleRecord := ⟨filename, loader.exportsOf id, false⟩
  match ← ExceptT.lift (evaluate load id record).attempt with
  | .error error => do
      modify fun loader => loader.dropRecord filename id
      throw error
  | .ok _ => do
      modify fun loader => loader.finishRecord id
      pure ((← get).exportsOf id)

/-- The exports of the file at a path, with at most `depth` loads nested in
one another. -/
def loadWithin : Nat → Path → Loading Value
  | 0, _ => exhausted
  | depth + 1, path => do
      let loader ← get
      match loader.cached? path with
      | some id => pure (loader.exportsOf id)
      | none =>
          loadFresh (loadWithin depth)
            (loader.resolver.fileSystem.canonicalize path)

/-- The exports of the file at a path. Loads that are nested in one another
are of different files, apart from an innermost one that cannot be read. -/
def load (path : Path) : Loading Value := do
  loadWithin ((← get).resolver.fileSystem.fileBound + 1) path

end Loading
end CommonJs
