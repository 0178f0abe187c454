import CommonJs.Proofs.Json.Grammar

/-!
# What is read is JSON

The reader takes a text apart only where the grammar allows it. With what it
reads of every text that the grammar spells, it reads exactly the texts of
JSON, each as the value that it spells.
-/

namespace CommonJs
namespace Literal

/-- What is skipped in front of a text is blank. -/
theorem exists_blanks (chars : List Char) :
    ∃ blanks, Blank blanks ∧ chars = blanks ++ skipBlanks chars :=
  ⟨chars.takeWhile isBlank, fun _ present => List.mem_takeWhile_imp present,
    List.takeWhile_append_dropWhile.symm⟩

/-! ## Numbers -/

/-- What is taken off as digits are digits. -/
theorem digits_takeDigits
    {chars : List Char}
    (notEmpty : (takeDigits chars).1 ≠ []) : Digits (takeDigits chars).1 :=
  ⟨notEmpty, fun _ present => List.mem_takeWhile_imp present⟩

theorem takeDigits_append_eq (chars : List Char) :
    (takeDigits chars).1 ++ (takeDigits chars).2 = chars :=
  List.takeWhile_append_dropWhile

/-- A fraction that is read is spelled in front of the rest. -/
theorem exists_of_readFraction?
    {chars fraction rest : List Char}
    (read : readFraction? chars = some (fraction, rest)) :
    ∃ spelled, SpellsFraction fraction spelled ∧ chars = spelled ++ rest := by
  unfold readFraction? at read
  split at read
  next chars =>
    dsimp only at read
    split_ifs at read with isEmpty
    simp only [Option.some.injEq, Prod.mk.injEq] at read
    obtain ⟨rfl, rfl⟩ := read
    exact ⟨_, .digits (digits_takeDigits isEmpty),
      by rw [List.cons_append, takeDigits_append_eq]⟩
  next =>
    simp only [Option.some.injEq, Prod.mk.injEq] at read
    obtain ⟨rfl, rfl⟩ := read
    exact ⟨[], .absent, rfl⟩

/-- An exponent that is read is spelled in front of the rest. -/
theorem exists_of_readExponent?
    {chars rest : List Char}
    {exponent : Option (Bool × List Char)}
    (read : readExponent? chars = some (exponent, rest)) :
    ∃ spelled, SpellsExponent exponent spelled ∧ chars = spelled ++ rest := by
  have close {mark : Char} {negative : Bool} {sign chars : List Char}
      (isMark : mark = 'e' ∨ mark = 'E') (isSign : SpellsSign negative sign)
      (read : (if (takeDigits chars).1 = [] then none
        else some (some (negative, (takeDigits chars).1),
            (takeDigits chars).2)) =
          some (exponent, rest)) :
      ∃ spelled, SpellsExponent exponent spelled ∧
        mark :: (sign ++ chars) = spelled ++ rest := by
    split_ifs at read with isEmpty
    simp only [Option.some.injEq, Prod.mk.injEq] at read
    obtain ⟨rfl, rfl⟩ := read
    exact ⟨_, .digits isMark isSign (digits_takeDigits isEmpty),
      by simp [takeDigits_append_eq]⟩
  unfold readExponent? at read
  split at read
  next mark chars =>
    split_ifs at read with isMark
    · dsimp only at read
      split at read
      · exact close isMark .minus read
      · exact close isMark .plus read
      · exact close isMark .absent read
    · simp only [Option.some.injEq, Prod.mk.injEq] at read
      obtain ⟨rfl, rfl⟩ := read
      exact ⟨[], .absent, rfl⟩
  next =>
    simp only [Option.some.injEq, Prod.mk.injEq] at read
    obtain ⟨rfl, rfl⟩ := read
    exact ⟨[], .absent, rfl⟩

/-- Digits with a fraction and an exponent after them are a number, with or
without a minus sign. -/
theorem exists_of_numberParts
    {chars middle rest fraction : List Char}
    {exponent : Option (Bool × List Char)}
    (negative : Bool)
    (notEmpty : (takeDigits chars).1 ≠ [])
    (noZero : ¬ ((takeDigits chars).1.head? = some '0' ∧
      (takeDigits chars).1.length ≠ 1))
    (readFraction : readFraction? (takeDigits chars).2 =
      some (fraction, middle))
    (readExponent : readExponent? middle = some (exponent, rest)) :
    ∃ spelled, SpellsNumber ⟨negative, (takeDigits chars).1, fraction, exponent⟩
        spelled ∧
      (if negative then ['-'] else []) ++ chars = spelled ++ rest := by
  obtain ⟨fractionChars, isFraction, isMiddle⟩ :=
    exists_of_readFraction? readFraction
  obtain ⟨exponentChars, isExponent, rfl⟩ :=
    exists_of_readExponent? readExponent
  have isWhole := takeDigits_append_eq chars
  rw [isMiddle] at isWhole
  have alone (isZero : (takeDigits chars).1.head? = some '0') :
      (takeDigits chars).1 = ['0'] := by
    have single : (takeDigits chars).1.length = 1 := by
      by_contra several
      exact noZero ⟨isZero, several⟩
    obtain ⟨digit, isDigit⟩ := List.length_eq_one_iff.mp single
    rw [isDigit] at isZero ⊢
    rw [Option.some.inj isZero]
  refine ⟨_,
    .parts (digits_takeDigits notEmpty) alone isFraction isExponent, ?_⟩
  simp only [List.append_assoc, isWhole]

/-- A number that is read is spelled in front of the rest. -/
theorem exists_of_readNumber?
    {chars rest : List Char}
    {written : NumberLiteral}
    (read : readNumber? chars = some (written, rest)) :
    ∃ spelled, SpellsNumber written spelled ∧ chars = spelled ++ rest := by
  unfold readNumber? at read
  dsimp only at read
  -- The sign is read first, and what follows is read alike in both cases.
  split at read
  all_goals
    split_ifs at read with noWhole
    obtain ⟨notEmpty, noZero⟩ := not_or.mp noWhole
    simp only [Option.bind_eq_bind, Option.bind_eq_some_iff, Prod.exists,
      Option.some.injEq, Prod.mk.injEq] at read
    obtain ⟨fraction, middle, readFraction, exponent, _, readExponent, rfl,
      rfl⟩ := read
    exact exists_of_numberParts _ notEmpty noZero readFraction readExponent

/-! ## Strings -/

/-- What is read of a string is spelled in front of its closing quote. -/
theorem exists_of_readString?
    {chars rest : List Char}
    {units : List TextUnit}
    (read : readString? chars = some (units, rest)) :
    ∃ spelled, SpellsUnits units spelled ∧ chars = spelled ++ '"' :: rest := by
  induction chars using readString?.induct generalizing units with
  | case1 => cases read
  | case2 chars =>
      simp only [readString?, Option.some.injEq, Prod.mk.injEq] at read
      obtain ⟨rfl, rfl⟩ := read
      exact ⟨[], .nil, rfl⟩
  | case3 first second third fourth chars inductionHypothesis =>
      simp only [readString?, Option.bind_eq_bind, Option.bind_eq_some_iff,
        Prod.exists, Option.some.injEq, Prod.mk.injEq] at read
      obtain ⟨code, isCode, others, _, readOthers, rfl, rfl⟩ := read
      obtain ⟨spelled, isSpelled, rfl⟩ := inductionHypothesis readOthers
      exact ⟨_, .code isCode isSpelled, rfl⟩
  | case4 letter chars notCode inductionHypothesis =>
      rw [readString?] at read
      · simp only [Option.bind_eq_bind, Option.bind_eq_some_iff, Prod.exists,
          Option.some.injEq, Prod.mk.injEq] at read
        obtain ⟨char, isEscape, others, _, readOthers, rfl, rfl⟩ := read
        obtain ⟨spelled, isSpelled, rfl⟩ := inductionHypothesis readOthers
        exact ⟨_, .escaped isEscape isSpelled, rfl⟩
      · exact notCode
  | case5 char chars notQuote notCode notEscape refused =>
      rw [readString?, if_pos refused] at read
      · cases read
      all_goals assumption
  | case6 char chars notQuote notCode notEscape accepted inductionHypothesis =>
      rw [readString?, if_neg accepted] at read
      · simp only [Option.bind_eq_bind, Option.bind_eq_some_iff, Prod.exists,
          Option.some.injEq, Prod.mk.injEq] at read
        obtain ⟨others, _, readOthers, rfl, rfl⟩ := read
        obtain ⟨spelled, isSpelled, rfl⟩ := inductionHypothesis readOthers
        obtain ⟨printable, notBackslash⟩ := not_or.mp accepted
        exact ⟨_, .plain (Nat.le_of_not_lt printable) notQuote notBackslash
          isSpelled, rfl⟩
      all_goals assumption

/-! ## Values -/

/-- Blanks may stand in front of a list. -/
theorem Listed.blanks_append
    {α : Type}
    {SpellsPart : α → List Char → Prop}
    {parts : List α}
    {blanks chars : List Char}
    (blank : Blank blanks)
    (listed : Listed SpellsPart parts chars) :
    Listed SpellsPart parts (blanks ++ chars) := by
  have both {before : List Char} (blankBefore : Blank before) :
      Blank (blanks ++ before) :=
    List.forall_mem_append.mpr ⟨blank, blankBefore⟩
  cases listed with
  | last blankBefore isPart blankAfter =>
      rw [← List.append_assoc]
      exact .last (both blankBefore) isPart blankAfter
  | more blankBefore isPart blankAfter areParts =>
      rw [← List.append_assoc]
      exact .more (both blankBefore) isPart blankAfter areParts

/-- What is read as a value is one. -/
def AcceptsValues (size : Nat) : Prop :=
  ∀ {chars rest : List Char} {literal : Literal},
    readValue? size chars = some (literal, rest) →
      ∃ spelled, Spells literal spelled ∧ chars = spelled ++ rest

/-- What is read as items is a list of them with a closing bracket. -/
def AcceptsItems (size : Nat) : Prop :=
  ∀ {chars rest : List Char} {items : List Literal},
    readItems? size chars = some (items, rest) →
      ∃ spelled, Listed Spells items spelled ∧ chars = spelled ++ ']' :: rest

/-- What is read as members is a list of them with a closing brace. -/
def AcceptsMembers (size : Nat) : Prop :=
  ∀ {chars rest : List Char} {members : List (List TextUnit × Literal)},
    readMembers? size chars = some (members, rest) →
      ∃ spelled, Listed (SpellsMember Spells) members spelled ∧
        chars = spelled ++ '\x7d' :: rest

/-- A list is read as its first value, a comma and the rest, or as its only
value. -/
theorem acceptsItems_succ
    {size : Nat}
    (acceptsValues : AcceptsValues size)
    (acceptsItems : AcceptsItems size) : AcceptsItems (size + 1) := by
  intro chars rest items read
  simp only [readItems?, Option.bind_eq_bind, Option.bind_eq_some_iff,
    Prod.exists] at read
  obtain ⟨item, afterItem, readItem, read⟩ := read
  obtain ⟨spelled, isValue, rfl⟩ := acceptsValues readItem
  obtain ⟨after, blankAfter, isAfter⟩ := exists_blanks afterItem
  split at read
  next others isComma =>
    simp only [Option.bind_eq_some_iff, Prod.exists, Option.some.injEq,
      Prod.mk.injEq] at read
    obtain ⟨items, _, readItems, rfl, rfl⟩ := read
    obtain ⟨blanks, blank, isOthers⟩ := exists_blanks others
    obtain ⟨rest, areItems, isRest⟩ := acceptsItems readItems
    refine ⟨_,
      .more blank_nil isValue blankAfter (areItems.blanks_append blank), ?_⟩
    rw [isAfter, isComma, isOthers, isRest]
    simp
  next isEnd =>
    simp only [Option.some.injEq, Prod.mk.injEq] at read
    obtain ⟨rfl, rfl⟩ := read
    refine ⟨_, .last blank_nil isValue blankAfter, ?_⟩
    rw [isAfter, isEnd]
    simp
  next => cases read

/-- Members are read as items are, each with its name and a colon. -/
theorem acceptsMembers_succ
    {size : Nat}
    (acceptsValues : AcceptsValues size)
    (acceptsMembers : AcceptsMembers size) : AcceptsMembers (size + 1) := by
  intro chars rest members read
  unfold readMembers? at read
  split at read
  next chars =>
    simp only [Option.bind_eq_bind, Option.bind_eq_some_iff,
      Prod.exists] at read
    obtain ⟨key, afterKey, readKey, read⟩ := read
    obtain ⟨keyChars, isKey, rfl⟩ := exists_of_readString? readKey
    obtain ⟨before, blankBefore, isBefore⟩ := exists_blanks afterKey
    split at read
    next afterColon isColon =>
      simp only [Option.bind_eq_some_iff, Prod.exists] at read
      obtain ⟨value, afterValue, readValue, read⟩ := read
      obtain ⟨between, blankBetween, isBetween⟩ := exists_blanks afterColon
      obtain ⟨spelled, isValue, isSpelled⟩ := acceptsValues readValue
      obtain ⟨after, blankAfter, isAfter⟩ := exists_blanks afterValue
      have isMember := SpellsMember.parts isKey blankBefore blankBetween isValue
      rw [isBefore, isColon, isBetween, isSpelled, isAfter]
      split at read
      next others isComma =>
        simp only [Option.bind_eq_some_iff, Prod.exists, Option.some.injEq,
          Prod.mk.injEq] at read
        obtain ⟨members, _, readMembers, rfl, rfl⟩ := read
        obtain ⟨blanks, blank, isOthers⟩ := exists_blanks others
        obtain ⟨rest, areMembers, isRest⟩ := acceptsMembers readMembers
        refine ⟨_, .more blank_nil isMember blankAfter
          (areMembers.blanks_append blank), ?_⟩
        rw [isComma, isOthers, isRest]
        simp
      next isEnd =>
        simp only [Option.some.injEq, Prod.mk.injEq] at read
        obtain ⟨rfl, rfl⟩ := read
        refine ⟨_, .last blank_nil isMember blankAfter, ?_⟩
        rw [isEnd]
        simp
      next => cases read
    next => cases read
  next => cases read

/-- A literal that is one word is spelled by that word. -/
theorem exists_of_skipWord?
    {word chars rest : List Char}
    {literal found : Literal}
    (spells : Spells literal word)
    (read : (skipWord? word chars).map (literal, ·) = some (found, rest)) :
    ∃ spelled, Spells found spelled ∧ chars = spelled ++ rest := by
  obtain ⟨others, skipped, isRead⟩ := Option.map_eq_some_iff.mp read
  obtain ⟨rfl, rfl⟩ := Prod.mk.inj isRead
  unfold skipWord? at skipped
  split_ifs at skipped with starts
  obtain ⟨others, rfl⟩ := List.isPrefixOf_iff_prefix.mp starts
  obtain rfl := Option.some.inj skipped
  exact ⟨word, spells, by rw [List.drop_left]⟩

/-- The first character of a value decides how it is read on. -/
theorem acceptsValues_succ
    {size : Nat}
    (acceptsItems : AcceptsItems size)
    (acceptsMembers : AcceptsMembers size) : AcceptsValues (size + 1) := by
  intro chars rest literal read
  unfold readValue? at read
  split at read
  next chars =>
    obtain ⟨⟨units, _⟩, readString, isRead⟩ := Option.map_eq_some_iff.mp read
    obtain ⟨rfl, rfl⟩ := Prod.mk.inj isRead
    obtain ⟨spelled, areUnits, rfl⟩ := exists_of_readString? readString
    exact ⟨_, .string areUnits, by simp⟩
  next chars =>
    obtain ⟨blanks, blank, isChars⟩ := exists_blanks chars
    rw [isChars]
    split at read
    next isEnd =>
      simp only [Option.some.injEq, Prod.mk.injEq] at read
      obtain ⟨rfl, rfl⟩ := read
      exact ⟨_, .emptyArray blank, by rw [isEnd]; simp⟩
    next =>
      obtain ⟨⟨items, _⟩, readItems, isRead⟩ := Option.map_eq_some_iff.mp read
      obtain ⟨rfl, rfl⟩ := Prod.mk.inj isRead
      obtain ⟨spelled, areItems, isSpelled⟩ := acceptsItems readItems
      exact ⟨_, .array (areItems.blanks_append blank), by rw [isSpelled]; simp⟩
  next chars =>
    obtain ⟨blanks, blank, isChars⟩ := exists_blanks chars
    rw [isChars]
    split at read
    next isEnd =>
      simp only [Option.some.injEq, Prod.mk.injEq] at read
      obtain ⟨rfl, rfl⟩ := read
      exact ⟨_, .emptyObject blank, by rw [isEnd]; simp⟩
    next =>
      obtain ⟨⟨members, _⟩, readMembers, isRead⟩ :=
        Option.map_eq_some_iff.mp read
      obtain ⟨rfl, rfl⟩ := Prod.mk.inj isRead
      obtain ⟨spelled, areMembers, isSpelled⟩ := acceptsMembers readMembers
      exact ⟨_, .object (areMembers.blanks_append blank),
        by rw [isSpelled]; simp⟩
  next => exact exists_of_skipWord? .null read
  next => exact exists_of_skipWord? .boolTrue read
  next => exact exists_of_skipWord? .boolFalse read
  next =>
    obtain ⟨⟨written, _⟩, readNumber, isRead⟩ := Option.map_eq_some_iff.mp read
    obtain ⟨rfl, rfl⟩ := Prod.mk.inj isRead
    obtain ⟨spelled, isNumber, rfl⟩ := exists_of_readNumber? readNumber
    exact ⟨_, .number isNumber, rfl⟩

/-- By induction on the depth, whatever is read is spelled in front of the
rest. -/
theorem accepts
    (size : Nat) :
    AcceptsValues size ∧ AcceptsItems size ∧ AcceptsMembers size := by
  induction size with
  | zero => exact ⟨nofun, nofun, nofun⟩
  | succ size inductionHypothesis =>
      obtain ⟨acceptsValues, acceptsItems, acceptsMembers⟩ :=
        inductionHypothesis
      exact ⟨acceptsValues_succ acceptsItems acceptsMembers,
        acceptsItems_succ acceptsValues acceptsItems,
        acceptsMembers_succ acceptsValues acceptsMembers⟩

/-- The texts that are read are exactly those of JSON. -/
theorem ofChars?_eq_some_iff (text : String) (literal : Literal) :
    ofChars? text.toList = some literal ↔ IsText literal text := by
  refine ⟨fun read => ?_, IsText.ofChars?⟩
  unfold ofChars? at read
  split at read
  next found rest readValue =>
    split_ifs at read with isEnd
    obtain rfl := Option.some.inj read
    obtain ⟨before, blankBefore, isText⟩ := exists_blanks text.toList
    obtain ⟨spelled, spells, isSpelled⟩ := (accepts _).1 readValue
    refine ⟨before, spelled, rest, blankBefore, spells, ?_,
      by rw [← isSpelled, ← isText]⟩
    exact List.dropWhile_eq_nil_iff.mp isEnd
  next => cases read

end Literal
end CommonJs
