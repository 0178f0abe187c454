import CommonJs.Json.Number

/-!
# JSON text

Reading goes in two steps. The first takes a text apart by the grammar of
JSON and keeps what it says to the letter: numbers as digits, strings with
their escapes, members in their order. The second gives that a value, where
numbers must be in range, surrogates must come in pairs, nesting is limited,
and the last of several equal keys counts. A reader that skips a part of a
text asks of it only what the first step asks.
-/

namespace CommonJs

/-- A piece of a string: a character, or sixteen bits written by number. -/
inductive TextUnit
  | char (value : Char)
  | code (value : Nat)

/-- What a JSON text says to the letter. -/
inductive Literal
  | null
  | bool (value : Bool)
  | number (value : NumberLiteral)
  | string (units : List TextUnit)
  | array (items : List Literal)
  | object (members : List (List TextUnit × Literal))
  deriving Inhabited

namespace Literal

/-- Blanks between the pieces of a text. -/
def isBlank (char : Char) : Bool :=
  char = ' ' || char = '\t' || char = '\n' || char = '\r'

/-- What follows the blanks at the beginning. -/
def skipBlanks (chars : List Char) : List Char :=
  chars.dropWhile isBlank

/-- The rest of a text after a word. -/
def skipWord? (word chars : List Char) : Option (List Char) :=
  if word.isPrefixOf chars then some (chars.drop word.length) else none

/-- The value of a digit in base sixteen. -/
def hexDigit? (char : Char) : Option Nat :=
  if char.isDigit then some (char.toNat - '0'.toNat)
  else if 'a' ≤ char ∧ char ≤ 'f' then some (char.toNat - 'a'.toNat + 10)
  else if 'A' ≤ char ∧ char ≤ 'F' then some (char.toNat - 'A'.toNat + 10)
  else none

/-- The number written by four digits in base sixteen. -/
def hexCode? (first second third fourth : Char) : Option Nat := do
  let first ← hexDigit? first
  let second ← hexDigit? second
  let third ← hexDigit? third
  let fourth ← hexDigit? fourth
  some (((first * 16 + second) * 16 + third) * 16 + fourth)

/-- The character that a letter after a backslash stands for. -/
def escaped? (letter : Char) : Option Char :=
  match letter with
  | '"' => some '"'
  | '\\' => some '\\'
  | '/' => some '/'
  | 'b' => some '\x08'
  | 'f' => some '\x0c'
  | 'n' => some '\n'
  | 'r' => some '\r'
  | 't' => some '\t'
  | _ => none

/-- The rest of a string up to its closing quote. -/
def readString? : List Char → Option (List TextUnit × List Char)
  | [] => none
  | '"' :: rest => some ([], rest)
  | '\\' :: 'u' :: first :: second :: third :: fourth :: rest => do
      let code ← hexCode? first second third fourth
      let (units, rest) ← readString? rest
      some (.code code :: units, rest)
  | '\\' :: letter :: rest => do
      let char ← escaped? letter
      let (units, rest) ← readString? rest
      some (.char char :: units, rest)
  | char :: rest =>
      if char.toNat < 0x20 ∨ char = '\\' then none
      else do
        let (units, rest) ← readString? rest
        some (.char char :: units, rest)

/-- The digits at the start of a text and the rest. -/
def takeDigits (chars : List Char) : List Char × List Char :=
  (chars.takeWhile Char.isDigit, chars.dropWhile Char.isDigit)

/-- The digits after a point, if there is a point. -/
def readFraction? (chars : List Char) : Option (List Char × List Char) :=
  match chars with
  | '.' :: rest =>
      let (digits, rest) := takeDigits rest
      if digits = [] then none else some (digits, rest)
  | _ => some ([], chars)

/-- The exponent of a number, if it has one. -/
def readExponent? (chars : List Char) :
    Option (Option (Bool × List Char) × List Char) :=
  match chars with
  | mark :: rest =>
      if mark = 'e' ∨ mark = 'E' then
        let (negative, rest) :=
          match rest with
          | '-' :: rest => (true, rest)
          | '+' :: rest => (false, rest)
          | _ => (false, rest)
        let (digits, rest) := takeDigits rest
        if digits = [] then none else some (some (negative, digits), rest)
      else some (none, chars)
  | [] => some (none, [])

/-- A number at the start of a text. No digit follows a leading zero. -/
def readNumber? (chars : List Char) : Option (NumberLiteral × List Char) := do
  let (negative, chars) :=
    match chars with
    | '-' :: rest => (true, rest)
    | _ => (false, chars)
  let (whole, rest) := takeDigits chars
  if whole = [] ∨ (whole.head? = some '0' ∧ whole.length ≠ 1) then none
  else do
    let (fraction, rest) ← readFraction? rest
    let (exponent, rest) ← readExponent? rest
    some (⟨negative, whole, fraction, exponent⟩, rest)

mutual

/-- A value at the start of a text, of at most `size` pieces. -/
def readValue? : Nat → List Char → Option (Literal × List Char)
  | 0, _ => none
  | size + 1, chars =>
      match chars with
      | '"' :: rest =>
          (readString? rest).map fun (units, rest) => (.string units, rest)
      | '[' :: rest =>
          match skipBlanks rest with
          | ']' :: rest => some (.array [], rest)
          | rest =>
              (readItems? size rest).map fun (items, rest) =>
                (.array items, rest)
      | '\x7b' :: rest =>
          match skipBlanks rest with
          | '\x7d' :: rest => some (.object [], rest)
          | rest =>
              (readMembers? size rest).map fun (members, rest) =>
                (.object members, rest)
      | 'n' :: _ => (skipWord? "null".toList chars).map (.null, ·)
      | 't' :: _ => (skipWord? "true".toList chars).map (.bool true, ·)
      | 'f' :: _ => (skipWord? "false".toList chars).map (.bool false, ·)
      | _ =>
          (readNumber? chars).map fun (written, rest) => (.number written, rest)

/-- The items of an array up to its closing bracket. -/
def readItems? : Nat → List Char → Option (List Literal × List Char)
  | 0, _ => none
  | size + 1, chars => do
      let (item, rest) ← readValue? size chars
      match skipBlanks rest with
      | ',' :: rest => do
          let (items, rest) ← readItems? size (skipBlanks rest)
          some (item :: items, rest)
      | ']' :: rest => some ([item], rest)
      | _ => none

/-- The members of an object up to its closing brace. -/
def readMembers? :
    Nat → List Char → Option (List (List TextUnit × Literal) × List Char)
  | 0, _ => none
  | size + 1, chars =>
      match chars with
      | '"' :: rest => do
          let (key, rest) ← readString? rest
          match skipBlanks rest with
          | ':' :: rest => do
              let (value, rest) ← readValue? size (skipBlanks rest)
              match skipBlanks rest with
              | ',' :: rest => do
                  let (members, rest) ← readMembers? size (skipBlanks rest)
                  some ((key, value) :: members, rest)
              | '\x7d' :: rest => some ([(key, value)], rest)
              | _ => none
          | _ => none
      | _ => none

end

/-- What a whole text says. Every piece takes up a character, and a value
inside an array or object is read one call below it, so twice the length of
the text is enough. -/
def ofChars? (chars : List Char) : Option Literal :=
  match readValue? (2 * chars.length + 2) (skipBlanks chars) with
  | some (literal, rest) => if skipBlanks rest = [] then some literal else none
  | none => none

/-- The text that the pieces of a string spell. Two surrogates make a
character when a high one comes right before a low one; alone they are
refused. -/
def charsOf? : List TextUnit → Option (List Char)
  | [] => some []
  | .char char :: rest => (charsOf? rest).map (char :: ·)
  | .code high :: .code low :: rest =>
      if 0xD800 ≤ high ∧ high ≤ 0xDBFF ∧ 0xDC00 ≤ low ∧ low ≤ 0xDFFF then
        (charsOf? rest).map
          (Char.ofNat (0x10000 + (high - 0xD800) * 0x400 + (low - 0xDC00)) :: ·)
      else if 0xD800 ≤ high ∧ high ≤ 0xDFFF then none
      else (charsOf? (.code low :: rest)).map (Char.ofNat high :: ·)
  | .code code :: rest =>
      if 0xD800 ≤ code ∧ code ≤ 0xDFFF then none
      else (charsOf? rest).map (Char.ofNat code :: ·)

/-- The text of the units of a string, if they make up characters. -/
def textOf? (units : List TextUnit) : Option String :=
  (charsOf? units).map String.ofList

mutual

/-- How deep arrays and objects are nested. -/
def depth : Literal → Nat
  | array items => depthOfItems items + 1
  | object members => depthOfMembers members + 1
  | _ => 0

/-- The depth of the deepest item. -/
def depthOfItems : List Literal → Nat
  | [] => 0
  | item :: rest => max item.depth (depthOfItems rest)

def depthOfMembers : List (List TextUnit × Literal) → Nat
  | [] => 0
  | (_, value) :: rest => max value.depth (depthOfMembers rest)

end

mutual

/-- The value of what a text says, nesting apart. -/
def value? : Literal → Option Json
  | null => some .null
  | bool value => some (.bool value)
  | number value => value.value?.map .number
  | string units => (textOf? units).map .string
  | array items => (valuesOfItems? items).map .array
  | object members =>
      (valuesOfMembers? members).map fun members =>
        .object (Json.sortMembers members)

/-- The values of items, if each has one. -/
def valuesOfItems? : List Literal → Option (List Json)
  | [] => some []
  | item :: rest => do
      let value ← item.value?
      let values ← valuesOfItems? rest
      some (value :: values)

/-- The values of members with their names, in the order in which they are
written. -/
def valuesOfMembers? : List (List TextUnit × Literal) →
    Option (List (String × Json))
  | [] => some []
  | (key, item) :: rest => do
      let key ← textOf? key
      let value ← item.value?
      let members ← valuesOfMembers? rest
      some ((key, value) :: members)

end

/-- The deepest nesting that is given a value. -/
def depthLimit : Nat := 127

/-- The value of what a text says. -/
def json? (literal : Literal) : Option Json :=
  if literal.depth ≤ depthLimit then literal.value? else none

end Literal

namespace Json

/-- The value of a JSON text. -/
def ofText? (text : String) : Option Json :=
  (Literal.ofChars? text.toList).bind Literal.json?

end Json
end CommonJs
