import CommonJs.Decimal.Notation
import CommonJs.Text.Quoted
import CommonJs.Value.Heap

/-!
# Values as text

The text of a value shows what JSON cannot: `undefined`, every number, a mark
for values of the host, the order of fields, and a mark where a cell is met
inside itself.
-/

namespace CommonJs

/-- A number with the fewest digits that read back, a tie going to the
greater magnitude, always positional and without a point if it is whole. -/
def numberText (number : Float) : String :=
  if number.isNaN then "NaN"
  else
    let magnitude :=
      if number.isInf then "inf"
      else String.ofList ((Decimal.shortest .up number).positional [])
    if Decimal.isNegative number then "-" ++ magnitude else magnitude

namespace Heap

/-- The text of a value, seen from inside the cells `opened`. There are
`depth` cells besides them, so when none is left every cell is one of
them. -/
def textWithin (heap : Heap) : Nat → List Handle → Value → String
  | _, _, .undefined => "undefined"
  | _, _, .null => "null"
  | _, _, .host _ => "[host]"
  | _, _, .bool value => if value then "true" else "false"
  | _, _, .number value => numberText value
  | _, _, .string value => Text.quoted value
  | 0, _, .array _ => "[Circular]"
  | 0, _, .object _ => "[Circular]"
  | depth + 1, opened, .array handle =>
      match heap.cell? handle with
      | some (.array items) =>
          if handle ∈ opened then "[Circular]"
          else
            "[" ++ ", ".intercalate
                (items.map (textWithin heap depth (handle :: opened))) ++
              "]"
      | _ => "[Circular]"
  | depth + 1, opened, .object handle =>
      match heap.cell? handle with
      | some (.object fields) =>
          if handle ∈ opened then "[Circular]"
          else
            let members :=
              fields.entries.map fun entry =>
                Text.quoted entry.1 ++ ": " ++
                  textWithin heap depth (handle :: opened) entry.2
            "\x7b" ++ ", ".intercalate members ++ "\x7d"
      | _ => "[Circular]"

/-- The text of a value. -/
def text (heap : Heap) (value : Value) : String :=
  heap.textWithin heap.size [] value

end Heap
end CommonJs
