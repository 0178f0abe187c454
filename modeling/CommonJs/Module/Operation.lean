import CommonJs.Module.Loader

/-!
# Operations on a loader

What can be asked of a loader from outside: to load and to resolve, to change
the exports of a record, and to go on with other settings or one more global.
The cache outlives all of them; new settings start with nothing remembered
about packages.
-/

namespace CommonJs

/-- A request to a loader. Where a name is given, the value that is loaded
becomes the value of that variable. -/
inductive Operation
  | requireFrom (context : Path) (specifier : String) (name : Option String)
  | requireModule (path : Option Path) (name : Option String)
  | resolveFrom (context : Path) (specifier : String) (origin : Option Path)
  | setExports (path : Path) (value : Expr)
  | withConfig (config : ResolverConfig)
  | withGlobal (name : String) (value : Expr)
  | change (change : Change)
  | eval (value : Expr)

/-- The answer to a request. -/
inductive Answer
  | value (value : Value)
  | error (error : LoadError)
  | resolution (resolution : Resolution)
  | flag (value : Bool)
  | done

namespace Loader

/-- The outcome of an action that loads a value. -/
def answerLoading
    (loader : Loader)
    (name : Option String)
    (action : Loading Value) : Option (Answer × Loader) := do
  let (outcome, loader) ← action.attempt loader
  match outcome, name with
  | .ok value, some name => some (.value value, loader.assign name value)
  | .ok value, none => some (.value value, loader)
  | .error error, _ => some (.error error, loader)

/-- The value of an expression outside of all bodies. -/
def eval (loader : Loader) (expr : Expr) : Value × Loader :=
  let (value, workspace) := loader.workspace.eval loader.globals none expr
  (value, { loader with workspace })

/-- Carry out a request. -/
def perform (loader : Loader) : Operation → Option (Answer × Loader)
  | .requireFrom context specifier name =>
      loader.answerLoading name
        (Loading.require Loading.load context specifier none)
  | .requireModule (some path) name =>
      loader.answerLoading name (Loading.load path)
  | .requireModule none name => loader.answerLoading name Loading.newObject
  | .resolveFrom context specifier origin => do
      let (result, memo) ←
        loader.resolver.resolve loader.memo context specifier origin
      some (.resolution result.resolution, { loader with memo })
  | .setExports path expr =>
      match loader.cached? path with
      | none => some (.flag false, loader)
      | some id =>
          let (value, loader) := loader.eval expr
          some (.flag true, loader.setExports id value)
  | .withConfig config =>
      some
        (.done,
          { loader with
            resolver := { loader.resolver with config }, memo := .empty })
  | .withGlobal name expr =>
      let (value, loader) := loader.eval expr
      some (.done, { loader with globals := loader.globals.insert name value })
  | .change change =>
      let (done, workspace) := change.run loader.globals none loader.workspace
      some (.flag done, { loader with workspace })
  | .eval expr =>
      let (value, loader) := loader.eval expr
      some (.value value, loader)

/-- The cached records in the order of their paths. -/
def cachedRecords (loader : Loader) : List ModuleRecord :=
  loader.cache.toList.filterMap fun entry => loader.record? entry.2

/-- The record that stands for the file at a path. -/
def recordAt? (loader : Loader) (path : Path) : Option ModuleRecord :=
  (loader.cached? path).bind loader.record?

end Loader
end CommonJs
