import CommonJs.Text.Unprintable

/-!
# Quoted text

A text between double quotes, on one line and without ambiguity: quotes and
backslashes are preceded by a backslash, the usual line characters have a
letter, and any other unprintable character is written by its number.
-/

namespace CommonJs
namespace Text

/-- A number in base sixteen with small letters. -/
def hexadecimal (number : Nat) : List Char :=
  Nat.toDigits 16 number

/-- How a character is written inside quotes. -/
def escape (char : Char) : List Char :=
  if char = '"' then ['\\', '"']
  else if char = '\\' then ['\\', '\\']
  else if char = '\n' then ['\\', 'n']
  else if char = '\r' then ['\\', 'r']
  else if char = '\t' then ['\\', 't']
  else if char = '\x00' then ['\\', '0']
  else if isUnprintable char then
    ['\\', 'u', '\x7b'] ++ hexadecimal char.toNat ++ ['\x7d']
  else [char]

/-- The text between double quotes. -/
def quoted (text : String) : String :=
  String.ofList ('"' :: text.toList.flatMap escape ++ ['"'])

end Text
end CommonJs
