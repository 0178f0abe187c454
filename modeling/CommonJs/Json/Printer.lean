import CommonJs.Decimal.Notation
import CommonJs.Json.Basic

/-!
# Writing JSON

A value is written on one line without blanks, or over several lines with
two blanks for each level. Only what JSON forbids inside quotes is escaped.
-/

namespace CommonJs

namespace JsonNumber

/-- A finite float is written with the fewest digits that read back, a tie
going to the even digit: with a point and at least one digit on either side
of it from 10^-5 to 10^16, and with an exponent outside that range. What is
not finite has no number. -/
def floatText (number : Float) : String :=
  if number.isFinite then
    let decimal := Decimal.shortest .toEven number
    let place := decimal.pointPlace
    let sign := if Decimal.isNegative number then "-" else ""
    let written :=
      if -5 < place ∧ place ≤ 16 then decimal.positional ['.', '0']
      else decimal.scientific
    sign ++ String.ofList written
  else "null"

/-- A number as it is written. -/
def text : JsonNumber → String
  | integer value => toString value
  | float value => floatText value

end JsonNumber

namespace Json

/-- How a character is written in a JSON string. -/
def escape (char : Char) : List Char :=
  match char with
  | '"' => ['\\', '"']
  | '\\' => ['\\', '\\']
  | '\x08' => ['\\', 'b']
  | '\x0c' => ['\\', 'f']
  | '\n' => ['\\', 'n']
  | '\r' => ['\\', 'r']
  | '\t' => ['\\', 't']
  | _ =>
      if char.toNat < 0x20 then
        let digits := Nat.toDigits 16 char.toNat
        ['\\', 'u'] ++ List.replicate (4 - digits.length) '0' ++ digits
      else [char]

/-- A string in quotes. -/
def stringText (text : String) : String :=
  String.ofList ('"' :: text.toList.flatMap escape ++ ['"'])

mutual

/-- A value on one line. -/
def compact : Json → String
  | null => "null"
  | bool value => if value then "true" else "false"
  | number value => value.text
  | string value => stringText value
  | array items => "[" ++ ",".intercalate (compactItems items) ++ "]"
  | object members =>
      "\x7b" ++ ",".intercalate (compactMembers members) ++ "\x7d"

def compactItems : List Json → List String
  | [] => []
  | item :: rest => item.compact :: compactItems rest

def compactMembers : List (String × Json) → List String
  | [] => []
  | (key, value) :: rest =>
      (stringText key ++ ":" ++ value.compact) :: compactMembers rest

end

/-- The blanks in front of a line at a level. -/
def indentation (level : Nat) : String :=
  String.ofList (List.replicate (2 * level) ' ')

/-- Lines one level deeper than the brackets around them. -/
def block (opening closing : String) (level : Nat) : List String → String
  | [] => opening ++ closing
  | lines =>
      let indented := lines.map (indentation (level + 1) ++ ·)
      opening ++ "\n" ++ ",\n".intercalate indented ++ "\n" ++
        indentation level ++ closing

mutual

/-- A value over several lines, whose first line stands at a level. -/
def prettyAt (level : Nat) : Json → String
  | array items => block "[" "]" level (prettyItems (level + 1) items)
  | object members =>
      block "\x7b" "\x7d" level (prettyMembers (level + 1) members)
  | null => "null"
  | bool value => if value then "true" else "false"
  | number value => value.text
  | string value => stringText value

def prettyItems (level : Nat) : List Json → List String
  | [] => []
  | item :: rest => item.prettyAt level :: prettyItems level rest

def prettyMembers (level : Nat) : List (String × Json) → List String
  | [] => []
  | (key, value) :: rest =>
      (stringText key ++ ": " ++ value.prettyAt level) ::
        prettyMembers level rest

end

/-- A value over several lines. -/
def pretty (value : Json) : String :=
  value.prettyAt 0

end Json
end CommonJs
