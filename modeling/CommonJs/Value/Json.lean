import CommonJs.Decimal.Basic
import CommonJs.Json.Basic
import CommonJs.Value.Heap

/-!
# Values and JSON

A value becomes JSON by walking through its cells. What JSON cannot say
becomes null: `undefined`, values of the host, numbers that are not finite,
and a cell inside itself. JSON becomes a value whose arrays and objects are
new cells.
-/

namespace CommonJs

/-- The largest integer below which all integers are floats. -/
def largestSafeInteger : Float := 9007199254740991

/-- A finite float as an integer, if it is one; the fraction is cut off. -/
def truncated (number : Float) : Int :=
  let magnitude : Int := number.abs.toUInt64.toNat
  if number < 0 then -magnitude else magnitude

/-- A number in JSON: an integer if it is one that floats hold exactly, so
that it has no fraction to cut off; null if it is not finite. -/
def numberToJson (number : Float) : Json :=
  if number.abs ≤ largestSafeInteger && Float.ofInt (truncated number) ==
    number then .number (.integer (truncated number))
  else if number.isFinite then .number (.float number)
  else .null

namespace Heap

/-- A value in JSON, seen from inside the cells `opened`. There are `depth`
cells besides them, so when none is left every cell is one of them. -/
def toJsonWithin (heap : Heap) : Nat → List Handle → Value → Json
  | _, _, .undefined => .null
  | _, _, .null => .null
  | _, _, .host _ => .null
  | _, _, .bool value => .bool value
  | _, _, .number value => numberToJson value
  | _, _, .string value => .string value
  | 0, _, .array _ => .null
  | 0, _, .object _ => .null
  | depth + 1, opened, .array handle =>
      match heap.cell? handle with
      | some (.array items) =>
          if handle ∈ opened then .null
          else .array (items.map (toJsonWithin heap depth (handle :: opened)))
      | _ => .null
  | depth + 1, opened, .object handle =>
      match heap.cell? handle with
      | some (.object fields) =>
          if handle ∈ opened then .null
          else
            .object
              (Json.sortMembers
                (fields.entries.map fun entry =>
                  (entry.1,
                    toJsonWithin heap depth (handle :: opened) entry.2)))
      | _ => .null

/-- A value in JSON. -/
def toJson (heap : Heap) (value : Value) : Json :=
  heap.toJsonWithin heap.size [] value

mutual

/-- The value of JSON on a heap. -/
def ofJson (heap : Heap) : Json → Value × Heap
  | .null => (.null, heap)
  | .bool value => (.bool value, heap)
  | .number value => (.number value.toFloat, heap)
  | .string value => (.string value, heap)
  | .array items =>
      let (values, heap) := ofItems heap items
      heap.newArray values
  | .object members =>
      let (fields, heap) := ofMembers heap .empty members
      let (handle, heap) := heap.allocate (.object fields)
      (.object handle, heap)

def ofItems (heap : Heap) : List Json → List Value × Heap
  | [] => ([], heap)
  | item :: rest =>
      let (value, heap) := ofJson heap item
      let (values, heap) := ofItems heap rest
      (value :: values, heap)

def ofMembers (heap : Heap) (fields : Fields Value) :
    List (String × Json) → Fields Value × Heap
  | [] => (fields, heap)
  | (key, member) :: rest =>
      let (value, heap) := ofJson heap member
      ofMembers heap (fields.set key value) rest

end

end Heap
end CommonJs
