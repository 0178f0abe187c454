/-!
# Reading UTF-8

Bytes are read into characters, and a stretch of bytes that is no character
is reported in place. Such a stretch is as long as possible while it is the
start of some character, and one byte long if it is the start of none.
Reading is strict, where one report refuses the text, or lossy, where each
report becomes the replacement character.
-/

namespace CommonJs
namespace Text

/-- A character of which some bytes are still to come: the bits so far, the
number of missing bytes, and the range in which the next byte must lie. -/
structure PartialChar where
  /-- The bits so far. -/
  bits : Nat
  /-- The number of bytes to come. -/
  missing : Nat
  /-- The least value that the next byte may have. -/
  least : Nat
  /-- The greatest value that the next byte may have. -/
  most : Nat

/-- What a byte starts when no character is open. -/
inductive LeadByte
  | ascii (char : Char)
  | opens (start : PartialChar)
  | invalid

/-- The first byte of a character fixes its length. The range of the second
byte leaves out overlong forms, surrogates and numbers above the last
character. -/
def leadByte (byte : Nat) : LeadByte :=
  if byte < 0x80 then .ascii (Char.ofNat byte)
  else if byte < 0xC2 then .invalid
  else if byte < 0xE0 then .opens ⟨byte - 0xC0, 1, 0x80, 0xBF⟩
  else if byte = 0xE0 then .opens ⟨0, 2, 0xA0, 0xBF⟩
  else if byte = 0xED then .opens ⟨0xD, 2, 0x80, 0x9F⟩
  else if byte < 0xF0 then .opens ⟨byte - 0xE0, 2, 0x80, 0xBF⟩
  else if byte = 0xF0 then .opens ⟨0, 3, 0x90, 0xBF⟩
  else if byte < 0xF4 then .opens ⟨byte - 0xF0, 3, 0x80, 0xBF⟩
  else if byte = 0xF4 then .opens ⟨4, 3, 0x80, 0x8F⟩
  else .invalid

/-- The character that an open one becomes with its last byte, or the open
character with one byte less to come. -/
def PartialChar.extend
    (start : PartialChar)
    (byte : Nat) : Char ⊕ PartialChar :=
  let bits := start.bits * 64 + (byte - 0x80)
  if start.missing ≤ 1 then .inl (Char.ofNat bits)
  else .inr ⟨bits, start.missing - 1, 0x80, 0xBF⟩

/-- The characters of a byte sequence, `none` standing for each stretch that
is no character. -/
def scanUtf8 : Option PartialChar → List UInt8 → List (Option Char)
  | none, [] => []
  | some _, [] => [none]
  | none, byte :: rest =>
      match leadByte byte.toNat with
      | .ascii char => some char :: scanUtf8 none rest
      | .opens start => scanUtf8 (some start) rest
      | .invalid => none :: scanUtf8 none rest
  | some start, byte :: rest =>
      if start.least ≤ byte.toNat ∧ byte.toNat ≤ start.most then
        match start.extend byte.toNat with
        | .inl char => some char :: scanUtf8 none rest
        | .inr next => scanUtf8 (some next) rest
      else
        none ::
          match leadByte byte.toNat with
          | .ascii char => some char :: scanUtf8 none rest
          | .opens next => scanUtf8 (some next) rest
          | .invalid => none :: scanUtf8 none rest

/-- The text of a byte sequence, if every byte belongs to a character. -/
def ofUtf8? (bytes : List UInt8) : Option String :=
  ((scanUtf8 none bytes).mapM id).map String.ofList

/-- The text of a byte sequence, with U+FFFD for each stretch that is no
character. -/
def ofUtf8Lossy (bytes : List UInt8) : String :=
  String.ofList ((scanUtf8 none bytes).map (·.getD '\uFFFD'))

end Text
end CommonJs
