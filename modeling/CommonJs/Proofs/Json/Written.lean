import CommonJs.Json.Printer
import CommonJs.Proofs.Json.Grammar
import Mathlib.Data.List.Forall2
import Mathlib.Tactic.IntervalCases

/-!
# Written values

What is written, on one line or over several, is spelled by the grammar: texts
with their escapes, and arrays and objects of what is itself spelled. So it is
read back as what was written.
-/

namespace CommonJs
namespace Json

open Literal (Blank blank_nil Listed Spells SpellsMember SpellsUnits)

/-! ## Texts -/

/-- The piece of a string that a character is written as. -/
def unitOf (char : Char) : TextUnit :=
  if char.toNat < 0x20 ∧ char ∉ ['\x08', '\x0c', '\n', '\r', '\t'] then
    .code char.toNat
  else .char char

/-- The pieces of a string that a text is written as. -/
def unitsOf (text : String) : List TextUnit :=
  text.toList.map unitOf

/-- Control characters are escaped by four digits that are read back. -/
theorem hexCode?_of_lt :
    ∀ code < 0x20, ∃ first second third fourth,
      ['\\', 'u'] ++ List.replicate (4 - (Nat.toDigits 16 code).length) '0' ++
          Nat.toDigits 16 code =
        ['\\', 'u', first, second, third, fourth] ∧
        Literal.hexCode? first second third fourth = some code := by
  intro code small
  interval_cases code <;> exact ⟨_, _, _, _, rfl, rfl⟩

/-- A character is spelled by its escape. -/
theorem spellsUnits_escape
    (char : Char)
    {units : List TextUnit}
    {chars : List Char}
    (spells : SpellsUnits units chars) :
    SpellsUnits (unitOf char :: units) (escape char ++ chars) := by
  unfold escape
  split
  · exact .escaped rfl spells
  · exact .escaped rfl spells
  · exact .escaped rfl spells
  · exact .escaped rfl spells
  · exact .escaped rfl spells
  · exact .escaped rfl spells
  · exact .escaped rfl spells
  next notQuote notBackslash _ _ _ _ _ =>
    split
    next control =>
      obtain ⟨first, second, third, fourth, written, isCode⟩ :=
        hexCode?_of_lt char.toNat control
      have isUnit : unitOf char = .code char.toNat := by
        rw [unitOf, if_pos ⟨control, by grind⟩]
      rw [isUnit]
      dsimp only
      rw [written]
      exact .code isCode spells
    next printable =>
      rw [unitOf, if_neg (by grind)]
      exact .plain (Nat.le_of_not_lt printable) notQuote notBackslash spells

/-- A text is spelled by the escapes of its characters. -/
theorem spellsUnits_unitsOf (text : String) :
    SpellsUnits (unitsOf text) (text.toList.flatMap escape) := by
  unfold unitsOf
  induction text.toList with
  | nil => exact .nil
  | cons char chars inductionHypothesis =>
      rw [List.map_cons, List.flatMap_cons]
      exact spellsUnits_escape char inductionHypothesis

/-- A string is written in its own spelling. -/
theorem spells_stringText (text : String) :
    Spells (.string (unitsOf text)) (stringText text).toList := by
  rw [stringText, String.toList_ofList]
  exact .string (spellsUnits_unitsOf text)

/-- A number that belongs to no surrogate is a character by itself. -/
theorem charsOf?_code_cons
    {code : Nat}
    (small : code < 0xD800)
    (units : List TextUnit) :
    Literal.charsOf? (.code code :: units) =
      (Literal.charsOf? units).map (Char.ofNat code :: ·) := by
  have noHigh (low : Nat) :
      ¬ (0xD800 ≤ code ∧ code ≤ 0xDBFF ∧ 0xDC00 ≤ low ∧ low ≤ 0xDFFF) := by
        omega
  have noSurrogate : ¬ (0xD800 ≤ code ∧ code ≤ 0xDFFF) := by omega
  match units with
  | [] => simp [Literal.charsOf?, noSurrogate]
  | .char _ :: _ => simp [Literal.charsOf?, noSurrogate]
  | .code low :: _ =>
      rw [Literal.charsOf?, if_neg (noHigh low), if_neg noSurrogate]

/-- The pieces that a text is written as spell that text. -/
theorem textOf?_unitsOf
    (text : String) : Literal.textOf? (unitsOf text) = some text := by
  have spelled (chars : List Char) : Literal.charsOf? (chars.map unitOf) =
      some chars := by
    induction chars with
    | nil => rfl
    | cons char chars inductionHypothesis =>
        rw [List.map_cons, unitOf]
        split
        next control =>
          rw [charsOf?_code_cons (by omega), inductionHypothesis,
            Option.map_some, Char.ofNat_toNat]
        next => rw [Literal.charsOf?, inductionHypothesis, Option.map_some]
  rw [Literal.textOf?, unitsOf, spelled, Option.map_some, String.ofList_toList]

/-! ## Arrays and objects -/

/-- Parts with commas between them are listed, whatever blanks stand before the
first one, after each comma and after the last one. -/
theorem listed_intercalate
    {α : Type}
    {SpellsPart : α → List Char → Prop}
    {parts : List α}
    {texts : List (List Char)}
    (spells : List.Forall₂ SpellsPart parts texts)
    (notEmpty : parts ≠ [])
    {before between after : List Char}
    (blankBefore : Blank before)
    (blankBetween : Blank between)
    (blankAfter : Blank after) :
    Listed SpellsPart parts
      (before ++ ((',' :: between).intercalate texts ++ after)) := by
  induction spells generalizing before with
  | nil => exact absurd rfl notEmpty
  | cons isPart areParts inductionHypothesis =>
      cases areParts with
      | nil =>
          rw [List.intercalate_singleton]
          exact .last blankBefore isPart blankAfter
      | cons _ _ =>
          have isMore := Listed.more blankBefore isPart blank_nil
            (inductionHypothesis (List.cons_ne_nil _ _) blankBetween)
          rw [List.intercalate_cons_cons]
          simpa using isMore

/-- Parts on lines of their own, each with the same blanks in front, are parts
with these blanks after each comma. -/
theorem intercalate_map_append
    (separator before : List Char)
    (texts : List (List Char))
    (notEmpty : texts ≠ []) :
    separator.intercalate (texts.map (before ++ ·)) =
      before ++ (separator ++ before).intercalate texts := by
  induction texts with
  | nil => exact absurd rfl notEmpty
  | cons text texts inductionHypothesis =>
      cases texts with
      | nil => simp
      | cons next texts =>
          rw [List.map_cons, List.map_cons, List.intercalate_cons_cons,
            ← List.map_cons, inductionHypothesis (List.cons_ne_nil _ _),
              List.intercalate_cons_cons]
          simp

/-- The indentation of a line is blank. -/
theorem blank_indentation
    (level : Nat) : Blank ('\n' :: (indentation level).toList) := by
  intro char present
  rw [indentation, String.toList_ofList] at present
  rcases List.mem_cons.mp present with rfl | isBlank
  · rfl
  · rw [List.eq_of_mem_replicate isBlank]
    rfl

/-- The lines of a block are separated by commas, line ends and blanks. -/
theorem toList_block
    (opening closing : String)
    (level : Nat)
    {lines : List String}
    (notEmpty : lines ≠ []) :
    (block opening closing level lines).toList =
      opening.toList ++ ('\n' :: (indentation (level + 1)).toList ++
        ((',' :: '\n' :: (indentation (level + 1)).toList).intercalate
            (lines.map String.toList) ++
          '\n' :: (indentation level).toList) ++ closing.toList) := by
  have indented : (lines.map (indentation (level + 1) ++ ·)).map String.toList =
      (lines.map String.toList).map
        ((indentation (level + 1)).toList ++ ·) := by
    simp [Function.comp_def]
  have joined :=
    intercalate_map_append [',', '\n'] (indentation (level + 1)).toList
      (lines.map String.toList) (by simpa using notEmpty)
  have isBlock : block opening closing level lines =
      opening ++ "\n" ++ ",\n".intercalate
          (lines.map (indentation (level + 1) ++ ·)) ++ "\n" ++
        indentation level ++ closing := by
    cases lines with
    | nil => exact absurd rfl notEmpty
    | cons _ _ => rfl
  have lineEnd : "\n".toList = ['\n'] := rfl
  have separator : ",\n".toList = [',', '\n'] := rfl
  rw [isBlock]
  simp only [String.toList_append, String.toList_intercalate, indented, lineEnd,
    separator, joined]
  simp

/-! ## Both layouts -/

/-- Items are written each for itself. -/
theorem compactItems_eq_map
    (items : List Json) : compactItems items = items.map compact := by
  induction items with
  | nil => rfl
  | cons item items inductionHypothesis =>
      rw [compactItems, inductionHypothesis, List.map_cons]

theorem prettyItems_eq_map (level : Nat) (items : List Json) :
    prettyItems level items = items.map (prettyAt level) := by
  induction items with
  | nil => rfl
  | cons item items inductionHypothesis =>
      rw [prettyItems, inductionHypothesis, List.map_cons]

/-- Members are written each for itself, with their names. -/
theorem compactMembers_eq_map (members : List (String × Json)) :
    compactMembers members =
      members.map fun member =>
        stringText member.1 ++ ":" ++ member.2.compact := by
  induction members with
  | nil => rfl
  | cons member members inductionHypothesis =>
      rw [compactMembers, inductionHypothesis, List.map_cons]

theorem prettyMembers_eq_map (level : Nat) (members : List (String × Json)) :
    prettyMembers level members =
      members.map fun member =>
        stringText member.1 ++ ": " ++ member.2.prettyAt level := by
  induction members with
  | nil => rfl
  | cons member members inductionHypothesis =>
      rw [prettyMembers, inductionHypothesis, List.map_cons]

/-- Both written forms of a value are spelled as this literal. -/
structure WrittenAs (value : Json) (literal : Literal) : Prop where
  /-- The form without blanks spells the literal. -/
  compact : Spells literal value.compact.toList
  /-- So does the indented form, at any level. -/
  pretty : ∀ level, Spells literal (value.prettyAt level).toList

theorem WrittenAs.string
    (text : String) : WrittenAs (.string text) (.string (unitsOf text)) where
  compact := spells_stringText text
  pretty _ := spells_stringText text

theorem WrittenAs.bool
    (value : Bool) : WrittenAs (.bool value) (.bool value) := by
  constructor
  · cases value with
    | true => exact .boolTrue
    | false => exact .boolFalse
  · intro level
    rw [prettyAt]
    cases value with
    | true => exact .boolTrue
    | false => exact .boolFalse

/-- Parts between brackets on one line. -/
theorem listed_compact
    {α β : Type}
    {SpellsPart : α → List Char → Prop}
    {parts : List α}
    {values : List β}
    {text : β → String}
    (spells : List.Forall₂
      (fun part value => SpellsPart part (text value).toList) parts values)
    (notEmpty : parts ≠ [])
    (opening closing : Char) :
    ∃ chars, Listed SpellsPart parts chars ∧
      (String.singleton opening ++ ",".intercalate (values.map text) ++
        String.singleton closing).toList = opening :: (chars ++ [closing]) := by
  have spells :
      List.Forall₂ SpellsPart parts ((values.map text).map String.toList) := by
    rw [List.map_map, List.forall₂_map_right_iff]
    exact spells
  have listed :=
    listed_intercalate spells notEmpty blank_nil blank_nil blank_nil
  refine ⟨_, listed, ?_⟩
  have separator : ",".toList = [','] := rfl
  simp [String.toList_intercalate, separator]

/-- Parts between brackets on lines of their own. -/
theorem listed_block
    {α β : Type}
    {SpellsPart : α → List Char → Prop}
    {parts : List α}
    {values : List β}
    {text : β → String}
    (spells : List.Forall₂
      (fun part value => SpellsPart part (text value).toList) parts values)
    (notEmpty : parts ≠ [])
    (opening closing : Char)
    (level : Nat) :
    ∃ chars, Listed SpellsPart parts chars ∧
      (block (String.singleton opening) (String.singleton closing) level
        (values.map text)).toList = opening :: (chars ++ [closing]) := by
  have spells :
      List.Forall₂ SpellsPart parts ((values.map text).map String.toList) := by
    rw [List.map_map, List.forall₂_map_right_iff]
    exact spells
  have listed := listed_intercalate spells notEmpty
    (blank_indentation (level + 1)) (blank_indentation (level + 1))
    (blank_indentation level)
  refine ⟨_, listed, ?_⟩
  have someValue : values.map text ≠ [] := by
    rintro isEmpty
    rw [isEmpty] at spells
    cases spells
    exact notEmpty rfl
  simp [toList_block _ _ level someValue]

/-- An array is written by writing its items. -/
theorem WrittenAs.array
    {items : List Json}
    {literals : List Literal}
    (written : List.Forall₂ (fun literal item => WrittenAs item literal)
      literals items) :
    WrittenAs (.array items) (.array literals) := by
  by_cases isEmpty : literals = []
  · subst isEmpty
    cases written
    refine ⟨.emptyArray blank_nil, fun level => ?_⟩
    rw [prettyAt, prettyItems, block]
    exact .emptyArray blank_nil
  · constructor
    · obtain ⟨chars, listed, isText⟩ := listed_compact
        (written.imp fun _ _ isWritten => isWritten.compact) isEmpty '[' ']'
      rw [Json.compact, compactItems_eq_map]
      exact isText ▸ .array listed
    · intro level
      obtain ⟨chars, listed, isText⟩ := listed_block
        (written.imp fun _ _ isWritten => isWritten.pretty (level + 1)) isEmpty
        '[' ']' level
      rw [prettyAt, prettyItems_eq_map]
      exact isText ▸ .array listed

/-- A key, a colon with or without a blank after it, and a value. -/
theorem spellsMember_append
    {key : List TextUnit}
    {value : Literal}
    {name : String}
    (isKey : key = unitsOf name)
    {after : List Char}
    (blank : Blank after)
    {text : List Char}
    (spells : Spells value text) :
    SpellsMember Spells (key, value)
      ((stringText name).toList ++ ':' :: (after ++ text)) := by
  subst isKey
  have isMember :=
    SpellsMember.parts (spellsUnits_unitsOf name) blank_nil blank spells
  rw [stringText, String.toList_ofList]
  simpa using isMember

/-- An object is written by writing its members in their order. -/
theorem WrittenAs.object
    {members : List (String × Json)}
    {literals : List (List TextUnit × Literal)}
    (written : List.Forall₂
      (fun literal member => literal.1 = unitsOf member.1 ∧
        WrittenAs member.2 literal.2)
      literals members) :
    WrittenAs (.object members) (.object literals) := by
  by_cases isEmpty : literals = []
  · subst isEmpty
    cases written
    refine ⟨.emptyObject blank_nil, fun level => ?_⟩
    rw [prettyAt, prettyMembers, block]
    exact .emptyObject blank_nil
  · constructor
    · have spells :
          List.Forall₂ (fun literal member => SpellsMember Spells literal
          (stringText member.1 ++ ":" ++ member.2.compact).toList) literals
          members := by
        refine written.imp fun literal member ⟨isKey, isWritten⟩ => ?_
        simpa using spellsMember_append isKey blank_nil isWritten.compact
      obtain ⟨chars, listed, isText⟩ :=
        listed_compact spells isEmpty '\x7b' '\x7d'
      rw [Json.compact, compactMembers_eq_map]
      exact isText ▸ .object listed
    · intro level
      have spells : List.Forall₂
          (fun literal member => SpellsMember Spells literal (stringText
            member.1 ++ ": " ++ member.2.prettyAt (level + 1)).toList)
          literals members := by
        refine written.imp fun literal member ⟨isKey, isWritten⟩ => ?_
        have blank : Blank [' '] := by simp [Blank, Literal.isBlank]
        simpa using spellsMember_append isKey blank
          (isWritten.pretty (level + 1))
      obtain ⟨chars, listed, isText⟩ :=
        listed_block spells isEmpty '\x7b' '\x7d' level
      rw [prettyAt, prettyMembers_eq_map]
      exact isText ▸ .object listed

/-- What is written is a text of its literal in both forms. -/
theorem WrittenAs.isText
    {value : Json}
    {literal : Literal}
    (written : WrittenAs value literal) :
    Literal.IsText literal value.compact ∧
      Literal.IsText literal value.pretty := by
  constructor
  · exact ⟨[], _, [], blank_nil, written.compact, blank_nil,
      (List.append_nil _).symm⟩
  · exact ⟨[], _, [], blank_nil, written.pretty 0, blank_nil,
      (List.append_nil _).symm⟩

end Json
end CommonJs
