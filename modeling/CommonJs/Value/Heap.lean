import CommonJs.Value.Fields

/-!
# Values and the heap they live on

A module exports a value. Arrays, objects and values of the host are cells on
a heap, and a value that is one of them holds the handle of its cell, so all
who hold the handle see the same changes. A heap may hold cells that contain
one another.
-/

namespace CommonJs

/-- The name of a cell. -/
structure Handle where
  /-- The position of the cell. -/
  index : Nat
  deriving DecidableEq

/-- A value that a module can export. -/
inductive Value
  | undefined
  | null
  | bool (value : Bool)
  | number (value : Float)
  | string (value : String)
  | array (handle : Handle)
  | object (handle : Handle)
  | host (handle : Handle)

instance : Inhabited Value := ⟨.undefined⟩

/-- What a cell of the host holds; to modules it is opaque. -/
inductive HostContent
  | text (value : String)
  | number (value : Float)

/-- What a handle stands for. -/
inductive Cell
  | array (items : List Value)
  | object (fields : Fields Value)
  | host (content : HostContent)

/-- The cells made so far. The handle of a cell is its position. -/
structure Heap where
  /-- The contents of each cell. -/
  cells : Array Cell

namespace Heap

def empty : Heap := ⟨#[]⟩

/-- The number of cells. -/
def size (heap : Heap) : Nat :=
  heap.cells.size

/-- What lies in a cell. -/
def cell? (heap : Heap) (handle : Handle) : Option Cell :=
  heap.cells[handle.index]?

/-- A new cell and its handle. -/
def allocate (heap : Heap) (cell : Cell) : Handle × Heap :=
  (⟨heap.size⟩, ⟨heap.cells.push cell⟩)

/-- The heap with another content of a cell. -/
def put (heap : Heap) (handle : Handle) (cell : Cell) : Heap :=
  ⟨heap.cells.setIfInBounds handle.index cell⟩

/-- A new object without fields. -/
def newObject (heap : Heap) : Value × Heap :=
  let (handle, heap) := heap.allocate (.object .empty)
  (.object handle, heap)

/-- A new array. -/
def newArray (heap : Heap) (items : List Value) : Value × Heap :=
  let (handle, heap) := heap.allocate (.array items)
  (.array handle, heap)

/-- A new value of the host. -/
def newHost (heap : Heap) (content : HostContent) : Value × Heap :=
  let (handle, heap) := heap.allocate (.host content)
  (.host handle, heap)

/-- The items of a value that is an array. -/
def items? (heap : Heap) : Value → Option (List Value)
  | .array handle =>
      match heap.cell? handle with
      | some (.array items) => some items
      | _ => none
  | _ => none

/-- The fields of a value that is an object. -/
def fields? (heap : Heap) : Value → Option (Fields Value)
  | .object handle =>
      match heap.cell? handle with
      | some (.object fields) => some fields
      | _ => none
  | _ => none

/-- The value of a field; `undefined` if the target is no object or has no
such field. -/
def getField (heap : Heap) (target : Value) (key : String) : Value :=
  match heap.fields? target with
  | some fields => (fields.get? key).getD .undefined
  | none => .undefined

/-- The heap with a field set, unless the target is no object. -/
def setField?
    (heap : Heap)
    (target : Value)
    (key : String)
    (value : Value) : Option Heap :=
  match target, heap.fields? target with
  | .object handle, some fields =>
      some (heap.put handle (.object (fields.set key value)))
  | _, _ => none

/-- The heap with a field removed and the value that it had, unless the
target is no object. -/
def removeField?
    (heap : Heap)
    (target : Value)
    (key : String) : Option (Value × Heap) :=
  match target, heap.fields? target with
  | .object handle, some fields =>
      let (removed, fields) := fields.take key
      some (removed.getD .undefined, heap.put handle (.object fields))
  | _, _ => none

/-- The heap with an item added to the end of an array, unless the target is
no array. -/
def pushItem? (heap : Heap) (target : Value) (item : Value) : Option Heap :=
  match target, heap.items? target with
  | .array handle, some items =>
      some (heap.put handle (.array (items ++ [item])))
  | _, _ => none

end Heap

namespace Value

/-- Whether two values are one: cells by their handles, all else by what they
are. A number that is no number is not the same as itself. -/
def same : Value → Value → Bool
  | undefined, undefined => true
  | null, null => true
  | bool first, bool second => first = second
  | number first, number second => first == second
  | string first, string second => first = second
  | array first, array second => first = second
  | object first, object second => first = second
  | host first, host second => first = second
  | _, _ => false

end Value
end CommonJs
