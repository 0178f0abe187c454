import Std.Data.TreeMap
import CommonJs.Value.Json
import CommonJs.Value.Text
import CommonJs.Path.Basic

/-!
# Expressions of scripts

Scripts are the language of module bodies here: they build values, look at
them and take them apart. An expression always has a value; what is not there
is `undefined`. Evaluation may add cells to the heap and changes none.
-/

namespace CommonJs

/-- What a body sees of its own module: the name `exports`, which it may bind
to something else, the exports of the module, and where the module lies. -/
structure Scope where
  /-- What the name `exports` stands for. -/
  exports : Value
  /-- The exports of the module. -/
  moduleExports : Value
  /-- The file of the module. -/
  filename : Path
  /-- The directory of that file. -/
  dirname : Path
  /-- Whether the body has run to the end. -/
  loaded : Bool

/-- The names that an expression may use. -/
structure Bindings where
  /-- The variables that all scripts share. -/
  store : Std.TreeMap String Value
  /-- What was put under a name for all scripts. -/
  globals : Std.TreeMap String Value
  /-- The module that the expression stands in, if it stands in one. -/
  scope : Option Scope

/-- The two ways to put a value inside another. -/
inductive Wrapping
  | array
  | object
  deriving DecidableEq

/-- An expression. -/
inductive Expr
  | undefined
  | null
  | bool (value : Bool)
  | number (value : Float)
  | string (value : String)
  | repeated (text : String) (count : Nat)
  | json (value : Json)
  | hostText (text : String)
  | hostNumber
  | named (name : String)
  | newObject
  | object (fields : List (String × Expr))
  | array (items : List Expr)
  | nested (wrapping : Wrapping) (count : Nat) (inner : Expr)
  | field (target : Expr) (key : String)
  | item (target : Expr) (index : Nat)
  | hasField (target : Expr) (key : String)
  | keys (target : Expr)
  | length (target : Expr)
  | isEmpty (target : Expr)
  | same (first second : Expr)
  | typeName (target : Expr)
  | text (target : Expr)
  | handleText (target : Expr)
  | roundTrip (target : Expr)
  | exports
  | moduleExports
  | filename
  | dirname
  | loaded
  | global (name : String)
  deriving Inhabited

namespace Heap

/-- The name of the type of a value. -/
def typeName (heap : Heap) : Value → String
  | .undefined => "undefined"
  | .null => "null"
  | .bool _ => "bool"
  | .number _ => "number"
  | .string _ => "string"
  | .array _ => "array"
  | .object _ => "object"
  | .host handle =>
      match heap.cell? handle with
      | some (.host (.number _)) => "host number"
      | _ => "host string"

/-- A value inside as many arrays or objects, each with one entry. -/
def wrap
    (heap : Heap)
    (wrapping : Wrapping)
    (value : Value) : Nat → Value × Heap
  | 0 => (value, heap)
  | count + 1 =>
      let (value, heap) :=
        match wrapping with
        | .array => heap.newArray [value]
        | .object =>
            let (handle, heap) := heap.allocate (.object ⟨[("k", value)]⟩)
            (.object handle, heap)
      heap.wrap wrapping value count

/-- The number of fields or items of a value that has any kind of them. -/
def length? (heap : Heap) (value : Value) : Option Nat :=
  match heap.fields? value with
  | some fields => some fields.size
  | none => (heap.items? value).map List.length

end Heap

/-- A number of things as a value. -/
def Value.ofCount (count : Nat) : Value :=
  .number (Float.ofNat count)

namespace Expr

mutual

/-- The value of an expression and the heap it leaves. -/
def eval (bindings : Bindings) (heap : Heap) : Expr → Value × Heap
  | undefined => (.undefined, heap)
  | null => (.null, heap)
  | bool value => (.bool value, heap)
  | number value => (.number value, heap)
  | string value => (.string value, heap)
  | repeated word count =>
      (.string (String.join (List.replicate count word)), heap)
  | json value => heap.ofJson value
  | hostText word => heap.newHost (.text word)
  | hostNumber => heap.newHost (.number 0)
  | named name => ((bindings.store[name]?).getD .undefined, heap)
  | newObject => heap.newObject
  | object fields =>
      let (fields, heap) := evalFields bindings heap .empty fields
      let (handle, heap) := heap.allocate (.object fields)
      (.object handle, heap)
  | array items =>
      let (items, heap) := evalItems bindings heap items
      heap.newArray items
  | nested wrapping count inner =>
      let (value, heap) := eval bindings heap inner
      heap.wrap wrapping value count
  | field target key =>
      let (value, heap) := eval bindings heap target
      (heap.getField value key, heap)
  | item target index =>
      let (value, heap) := eval bindings heap target
      match heap.items? value with
      | some items => ((items[index]?).getD .undefined, heap)
      | none => (.undefined, heap)
  | hasField target key =>
      let (value, heap) := eval bindings heap target
      match heap.fields? value with
      | some fields => (.bool (fields.contains key), heap)
      | none => (.bool false, heap)
  | keys target =>
      let (value, heap) := eval bindings heap target
      match heap.fields? value with
      | some fields => heap.newArray (fields.keys.map .string)
      | none => (.undefined, heap)
  | length target =>
      let (value, heap) := eval bindings heap target
      match heap.length? value with
      | some count => (.ofCount count, heap)
      | none => (.undefined, heap)
  | isEmpty target =>
      let (value, heap) := eval bindings heap target
      match heap.length? value with
      | some count => (.bool (count = 0), heap)
      | none => (.undefined, heap)
  | same first second =>
      let (first, heap) := eval bindings heap first
      let (second, heap) := eval bindings heap second
      (.bool (first.same second), heap)
  | typeName target =>
      let (value, heap) := eval bindings heap target
      (.string (heap.typeName value), heap)
  | text target =>
      let (value, heap) := eval bindings heap target
      (.string (heap.text value), heap)
  | handleText target =>
      let (value, heap) := eval bindings heap target
      match value with
      | .array _ => (.string (heap.text value), heap)
      | .object _ => (.string (heap.text value), heap)
      | _ => (.undefined, heap)
  | roundTrip target =>
      let (value, heap) := eval bindings heap target
      heap.ofJson (heap.toJson value)
  | exports => ((bindings.scope.map (·.exports)).getD .undefined, heap)
  | moduleExports =>
      ((bindings.scope.map (·.moduleExports)).getD .undefined, heap)
  | filename =>
      ((bindings.scope.map (.string ·.filename.toString)).getD .undefined, heap)
  | dirname =>
      ((bindings.scope.map (.string ·.dirname.toString)).getD .undefined, heap)
  | loaded => ((bindings.scope.map (.bool ·.loaded)).getD .undefined, heap)
  | global name => ((bindings.globals[name]?).getD .undefined, heap)

def evalItems
    (bindings : Bindings)
    (heap : Heap) : List Expr → List Value × Heap
  | [] => ([], heap)
  | first :: rest =>
      let (value, heap) := eval bindings heap first
      let (values, heap) := evalItems bindings heap rest
      (value :: values, heap)

def evalFields
    (bindings : Bindings)
    (heap : Heap)
    (fields : Fields Value) :
    List (String × Expr) → Fields Value × Heap
  | [] => (fields, heap)
  | (key, first) :: rest =>
      let (value, heap) := eval bindings heap first
      evalFields bindings heap (fields.set key value) rest

end

end Expr
end CommonJs
