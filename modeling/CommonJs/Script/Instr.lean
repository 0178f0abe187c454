import CommonJs.Script.Expr

/-!
# Instructions of scripts

A body is a list of instructions. Those of the first kind change variables
and cells and are of use outside of bodies as well; the others ask for
modules, set what the module exports, note something in the log, or fail.
-/

namespace CommonJs

/-- An instruction that changes a variable or a cell. -/
inductive Change
  | assign (name : String) (value : Expr)
  | set (target : Expr) (key : String) (value : Expr)
  | push (target : Expr) (item : Expr)
  | remove (target : Expr) (key : String)

/-- An instruction of a body. -/
inductive Instr
  | change (change : Change)
  | require (specifier : String) (name : String)
  | tryRequire (specifier : String) (name : String)
  | resolve (specifier : String) (name : String)
  | tryResolve (specifier : String)
  | setExports (value : Expr)
  | rebind (value : Expr)
  | log (value : Expr)
  | throwText (text : String)
  | throwValue (value : Expr)
  | malformed (message : String)
  | failFirst (count : Nat)

/-- A body. -/
abbrev Script := List Instr

/-- The cells and variables that all scripts of a system share. -/
structure Workspace where
  /-- The cells. -/
  heap : Heap
  /-- The variables. -/
  store : Std.TreeMap String Value

namespace Workspace

def empty : Workspace := ⟨.empty, ∅⟩

/-- The workspace with a variable set. -/
def assign
    (workspace : Workspace)
    (name : String)
    (value : Value) : Workspace :=
  { workspace with store := workspace.store.insert name value }

/-- The value of an expression. -/
def eval
    (workspace : Workspace)
    (globals : Std.TreeMap String Value)
    (scope : Option Scope)
    (expr : Expr) : Value × Workspace :=
  let (value, heap) :=
    expr.eval ⟨workspace.store, globals, scope⟩ workspace.heap
  (value, { workspace with heap })

end Workspace

namespace Change

/-- The word for a change in messages. -/
def word : Change → String
  | assign .. => "let"
  | set .. => "set"
  | push .. => "push"
  | remove .. => "remove"

/-- Carry out a change. It fails if its target is of the wrong kind, and then
the value to be stored is not evaluated. -/
def run
    (globals : Std.TreeMap String Value)
    (scope : Option Scope)
    (workspace : Workspace) : Change → Bool × Workspace
  | assign name value =>
      let (value, workspace) := workspace.eval globals scope value
      (true, workspace.assign name value)
  | set target key value =>
      let (target, workspace) := workspace.eval globals scope target
      match workspace.heap.fields? target with
      | none => (false, workspace)
      | some _ =>
          let (value, workspace) := workspace.eval globals scope value
          match workspace.heap.setField? target key value with
          | some heap => (true, { workspace with heap })
          | none => (false, workspace)
  | push target item =>
      let (target, workspace) := workspace.eval globals scope target
      match workspace.heap.items? target with
      | none => (false, workspace)
      | some _ =>
          let (item, workspace) := workspace.eval globals scope item
          match workspace.heap.pushItem? target item with
          | some heap => (true, { workspace with heap })
          | none => (false, workspace)
  | remove target key =>
      let (target, workspace) := workspace.eval globals scope target
      match workspace.heap.removeField? target key with
      | some (removed, heap) =>
          (true, Workspace.assign { workspace with heap } "removed" removed)
      | none => (false, workspace)

end Change
end CommonJs
