import CommonJs.Json.Literal
import Mathlib.Data.List.TakeWhile

/-!
# The grammar of JSON texts

Which characters spell a value is said by the rules of the grammar: the words,
numbers with their parts, strings with their escapes, and values in brackets
and braces with blanks around each. The reader reads every text that the
grammar spells, whatever the layout, as what it spells.
-/

namespace CommonJs
namespace Literal

/-- Nothing but blanks. -/
def Blank (chars : List Char) : Prop :=
  ∀ char ∈ chars, isBlank char = true

/-- One digit or more. -/
def Digits (chars : List Char) : Prop :=
  chars ≠ [] ∧ ∀ char ∈ chars, char.isDigit = true

/-- The digits after a point, with the point, or nothing. -/
inductive SpellsFraction : List Char → List Char → Prop
  | absent : SpellsFraction [] []
  | digits {digits : List Char} : Digits digits →
      SpellsFraction digits ('.' :: digits)

/-- The sign of an exponent. A plus sign may be left out. -/
inductive SpellsSign : Bool → List Char → Prop
  | absent : SpellsSign false []
  | plus : SpellsSign false ['+']
  | minus : SpellsSign true ['-']

/-- An exponent with its mark, or nothing. -/
inductive SpellsExponent : Option (Bool × List Char) → List Char → Prop
  | absent : SpellsExponent none []
  | digits {mark : Char} {negative : Bool} {sign digits : List Char} :
      mark = 'e' ∨ mark = 'E' → SpellsSign negative sign → Digits digits →
      SpellsExponent (some (negative, digits)) (mark :: (sign ++ digits))

/-- A number. The digits before the point start with zero only if that is
all of them. -/
inductive SpellsNumber : NumberLiteral → List Char → Prop
  | parts {negative : Bool} {whole fraction : List Char}
      {exponent : Option (Bool × List Char)}
      {fractionChars exponentChars : List Char} :
      Digits whole → (whole.head? = some '0' → whole = ['0']) →
      SpellsFraction fraction fractionChars →
      SpellsExponent exponent exponentChars →
      SpellsNumber ⟨negative, whole, fraction, exponent⟩
        ((if negative then ['-'] else []) ++
          (whole ++ (fractionChars ++ exponentChars)))

/-- The pieces of a string between its quotes. -/
inductive SpellsUnits : List TextUnit → List Char → Prop
  | nil : SpellsUnits [] []
  | plain {char : Char} {units : List TextUnit} {chars : List Char} :
      0x20 ≤ char.toNat → char ≠ '"' → char ≠ '\\' → SpellsUnits units chars →
      SpellsUnits (.char char :: units) (char :: chars)
  | escaped {letter char : Char} {units : List TextUnit} {chars : List Char} :
      escaped? letter = some char → SpellsUnits units chars →
      SpellsUnits (.char char :: units) ('\\' :: letter :: chars)
  | code {first second third fourth : Char} {code : Nat} {units : List TextUnit}
      {chars : List Char} :
      hexCode? first second third fourth = some code → SpellsUnits units chars →
      SpellsUnits (.code code :: units)
        ('\\' :: 'u' :: first :: second :: third :: fourth :: chars)

/-- One part or more, separated by commas, with blanks around each. -/
inductive Listed
    {α : Type}
    (SpellsPart : α → List Char → Prop) : List α → List Char → Prop
  | last {part : α} {before chars after : List Char} :
      Blank before → SpellsPart part chars → Blank after →
      Listed SpellsPart [part] (before ++ (chars ++ after))
  | more {part : α} {parts : List α} {before chars after rest : List Char} :
      Blank before → SpellsPart part chars → Blank after →
      Listed SpellsPart parts rest →
      Listed SpellsPart (part :: parts)
        (before ++ (chars ++ (after ++ ',' :: rest)))

/-- A key and its value. -/
inductive SpellsMember (SpellsValue : Literal → List Char → Prop) :
    List TextUnit × Literal → List Char → Prop
  | parts {key : List TextUnit} {value : Literal}
      {keyChars before after chars : List Char} :
      SpellsUnits key keyChars → Blank before → Blank after →
      SpellsValue value chars →
      SpellsMember SpellsValue (key, value)
        ('"' :: (keyChars ++ '"' :: (before ++ ':' :: (after ++ chars))))

/-- A value without the blanks around it. -/
inductive Spells : Literal → List Char → Prop
  | null : Spells .null ['n', 'u', 'l', 'l']
  | boolTrue : Spells (.bool true) ['t', 'r', 'u', 'e']
  | boolFalse : Spells (.bool false) ['f', 'a', 'l', 's', 'e']
  | number {written : NumberLiteral} {chars : List Char} :
      SpellsNumber written chars → Spells (.number written) chars
  | string {units : List TextUnit} {chars : List Char} :
      SpellsUnits units chars → Spells (.string units) ('"' :: (chars ++ ['"']))
  | emptyArray {blanks : List Char} :
      Blank blanks → Spells (.array []) ('[' :: (blanks ++ [']']))
  | array {items : List Literal} {chars : List Char} :
      Listed Spells items chars →
        Spells (.array items) ('[' :: (chars ++ [']']))
  | emptyObject {blanks : List Char} :
      Blank blanks → Spells (.object []) ('\x7b' :: (blanks ++ ['\x7d']))
  | object {members : List (List TextUnit × Literal)} {chars : List Char} :
      Listed (SpellsMember Spells) members chars →
      Spells (.object members) ('\x7b' :: (chars ++ ['\x7d']))

/-- A whole text, with the blanks around its value. -/
def IsText (literal : Literal) (text : String) : Prop :=
  ∃ before chars after, Blank before ∧ Spells literal chars ∧ Blank after ∧
    text.toList = before ++ (chars ++ after)

/-! ## Blanks -/

theorem blank_nil : Blank [] := nofun

/-- All blanks in front of a text are skipped. -/
theorem skipBlanks_append
    {before : List Char}
    (blank : Blank before)
    (rest : List Char) : skipBlanks (before ++ rest) = skipBlanks rest :=
  List.dropWhile_append_of_pos blank

/-- Nothing is skipped in front of another character. -/
theorem skipBlanks_cons
    {char : Char}
    (notBlank : isBlank char = false)
    (rest : List Char) : skipBlanks (char :: rest) = char :: rest :=
  List.dropWhile_cons_of_neg (by simp [notBlank])

theorem skipBlanks_append_cons
    {blanks : List Char}
    (blank : Blank blanks)
    (char : Char)
    (notBlank : isBlank char = false)
    (rest : List Char) :
    skipBlanks (blanks ++ char :: rest) = char :: rest := by
  rw [skipBlanks_append blank, skipBlanks_cons notBlank]

/-! ## Numbers -/

/-- The text does not go on with a digit. -/
def StopsDigits (rest : List Char) : Prop :=
  ∀ char ∈ rest.head?, char.isDigit = false

/-- What may come after a value: nothing, a blank, a comma or a closing
bracket or brace. -/
def EndsValue (rest : List Char) : Prop :=
  ∀ char ∈ rest.head?, isBlank char = true ∨ char = ',' ∨ char = ']' ∨
    char = '\x7d'

/-- Digits are taken off up to the first other character. -/
theorem takeDigits_append
    {digits rest : List Char}
    (allDigits : ∀ char ∈ digits, char.isDigit = true)
    (stops : StopsDigits rest) :
    takeDigits (digits ++ rest) = (digits, rest) := by
  rw [takeDigits, List.takeWhile_append_of_pos allDigits,
    List.dropWhile_append_of_pos allDigits]
  cases rest with
  | nil => simp
  | cons char rest =>
      have notDigit : char.isDigit = false := stops char rfl
      rw [List.takeWhile_cons_of_neg (by simp [notDigit]),
        List.dropWhile_cons_of_neg (by simp [notDigit]), List.append_nil]

/-- What may follow a value is not read as a digit. -/
theorem EndsValue.stopsDigits
    {rest : List Char}
    (ends : EndsValue rest) : StopsDigits rest := by
  intro char isHead
  rcases ends char isHead with blank | rfl | rfl | rfl
  · simp only [isBlank, Bool.or_eq_true, decide_eq_true_eq] at blank
    rcases blank with ((rfl | rfl) | rfl) | rfl <;> rfl
  · rfl
  · rfl
  · rfl

/-- What may follow a value does not go on as a number. -/
theorem EndsValue.ne_mark
    {char : Char}
    {rest : List Char}
    (ends : EndsValue (char :: rest)) :
    ¬ (char = 'e' ∨ char = 'E') ∧ char ≠ '.' := by
  rcases ends char rfl with blank | rfl | rfl | rfl
  · simp only [isBlank, Bool.or_eq_true, decide_eq_true_eq] at blank
    rcases blank with ((rfl | rfl) | rfl) | rfl <;> decide
  · decide
  · decide
  · decide

/-- An exponent is read as it is spelled. -/
theorem SpellsExponent.read
    {exponent : Option (Bool × List Char)}
    {chars rest : List Char}
    (spells : SpellsExponent exponent chars)
    (ends : EndsValue rest) :
    readExponent? (chars ++ rest) = some (exponent, rest) := by
  cases spells with
  | absent =>
      cases rest with
      | nil => rfl
      | cons char rest => exact if_neg ends.ne_mark.1
  | @digits mark negative sign digits isMark isSign areDigits =>
      have taken := takeDigits_append areDigits.2 ends.stopsDigits
      rw [List.cons_append, List.append_assoc]
      unfold readExponent?
      cases isSign with
      | absent =>
          obtain ⟨first, others, rfl⟩ := List.exists_cons_of_ne_nil areDigits.1
          have isDigit : first.isDigit = true :=
            areDigits.2 first List.mem_cons_self
          have notMinus : first ≠ '-' := by rintro rfl; cases isDigit
          have notPlus : first ≠ '+' := by rintro rfl; cases isDigit
          rw [List.cons_append] at taken
          simp [isMark, notMinus, notPlus, taken]
      | plus => simp [isMark, taken, areDigits.1]
      | minus => simp [isMark, taken, areDigits.1]

/-- A fraction is read as it is spelled. -/
theorem SpellsFraction.read
    {fraction chars rest : List Char}
    (spells : SpellsFraction fraction chars)
    (stops : StopsDigits rest)
    (noPoint : ∀ char ∈ rest.head?, char ≠ '.') :
    readFraction? (chars ++ rest) = some (fraction, rest) := by
  cases spells with
  | absent =>
      cases rest with
      | nil => rfl
      | cons char rest =>
          have notPoint : char ≠ '.' := noPoint char rfl
          simp [readFraction?, notPoint]
  | digits areDigits =>
      simp [readFraction?, takeDigits_append areDigits.2 stops, areDigits.1]

/-- What comes after the digits and the fraction of a number neither goes on
with them nor starts a fraction. -/
theorem SpellsExponent.stops
    {exponent : Option (Bool × List Char)}
    {chars rest : List Char}
    (spells : SpellsExponent exponent chars)
    (ends : EndsValue rest) :
    StopsDigits (chars ++ rest) ∧
      ∀ char ∈ (chars ++ rest).head?, char ≠ '.' := by
  cases spells with
  | absent =>
      refine ⟨ends.stopsDigits, fun char isHead => ?_⟩
      cases rest with
      | nil => cases isHead
      | cons first rest =>
          obtain rfl := Option.some.inj isHead
          exact ends.ne_mark.2
  | digits isMark _ _ =>
      constructor
      · rintro char ⟨⟩
        rcases isMark with rfl | rfl <;> rfl
      · rintro char ⟨⟩
        rcases isMark with rfl | rfl <;> decide

theorem SpellsFraction.stops
    {fraction chars rest : List Char}
    (spells : SpellsFraction fraction chars)
    (stops : StopsDigits rest) : StopsDigits (chars ++ rest) := by
  cases spells with
  | absent => exact stops
  | digits _ =>
      rintro char ⟨⟩
      rfl

/-- A number is read up to what ends it. -/
theorem SpellsNumber.read
    {written : NumberLiteral}
    {chars rest : List Char}
    (spells : SpellsNumber written chars)
    (ends : EndsValue rest) :
    readNumber? (chars ++ rest) = some (written, rest) := by
  cases spells with
  | @parts negative whole fraction exponent fractionChars exponentChars
      areDigits noZero isFraction isExponent =>
      obtain ⟨stops, noPoint⟩ := isExponent.stops ends
      have readWhole := takeDigits_append areDigits.2 (isFraction.stops stops)
      have readFraction := isFraction.read stops noPoint
      have readExponent := isExponent.read ends
      obtain ⟨first, others, rfl⟩ := List.exists_cons_of_ne_nil areDigits.1
      have isDigit : first.isDigit = true :=
        areDigits.2 first List.mem_cons_self
      have notMinus : first ≠ '-' := by rintro rfl; cases isDigit
      have alone : first = '0' → others = [] := fun isZero =>
        (List.cons.inj (noZero (congrArg some isZero))).2
      rw [List.cons_append] at readWhole
      rw [List.append_assoc, List.append_assoc, List.append_assoc]
      unfold readNumber?
      cases negative with
      | true => simpa [readWhole, readFraction, readExponent] using alone
      | false =>
          simpa [notMinus, readWhole, readFraction, readExponent] using alone

/-! ## Strings -/

/-- A string is read up to its closing quote. -/
theorem SpellsUnits.read
    {units : List TextUnit}
    {chars : List Char}
    (spells : SpellsUnits units chars)
    (rest : List Char) :
    readString? (chars ++ '"' :: rest) = some (units, rest) := by
  induction spells with
  | nil => rfl
  | @plain char units chars printable notQuote notBackslash _
      inductionHypothesis =>
      rw [List.cons_append, readString?]
      · simp [inductionHypothesis, Nat.not_lt.mpr printable, notBackslash]
      all_goals grind
  | @escaped letter char units chars isEscape _ inductionHypothesis =>
      have notCode : letter ≠ 'u' := by rintro rfl; cases isEscape
      rw [List.cons_append, List.cons_append, readString?]
      · simp [isEscape, inductionHypothesis]
      all_goals grind
  | code isCode _ inductionHypothesis =>
      simp [readString?, isCode, inductionHypothesis]

/-! ## Values -/

/-- A number starts with a minus sign or a digit. -/
theorem SpellsNumber.exists_cons
    {written : NumberLiteral}
    {chars : List Char}
    (spells : SpellsNumber written chars) :
    ∃ first others, chars = first :: others ∧
      (first = '-' ∨ first.isDigit = true) := by
  cases spells with
  | @parts negative whole _ _ _ _ areDigits _ _ _ =>
      cases negative with
      | true => exact ⟨'-', _, rfl, .inl rfl⟩
      | false =>
          obtain ⟨first, others, rfl⟩ := List.exists_cons_of_ne_nil areDigits.1
          exact ⟨first, _, rfl, .inr (areDigits.2 first List.mem_cons_self)⟩

/-- A value starts with a character that is no blank and closes no array. -/
theorem Spells.exists_cons
    {literal : Literal}
    {chars : List Char}
    (spells : Spells literal chars) :
    ∃ first others, chars = first :: others ∧ isBlank first = false ∧
      first ≠ ']' := by
  cases spells with
  | number isNumber =>
      obtain ⟨first, others, rfl, starts⟩ := isNumber.exists_cons
      refine ⟨first, others, rfl, ?_⟩
      rcases starts with rfl | isDigit
      · decide
      · constructor
        · by_contra blank
          simp only [isBlank, Bool.or_eq_true, decide_eq_true_eq,
            Bool.not_eq_false] at blank
          rcases blank with ((rfl | rfl) | rfl) | rfl <;> cases isDigit
        · rintro rfl
          cases isDigit
  | _ => exact ⟨_, _, rfl, by decide, by decide⟩

/-- A value does not begin with a blank. -/
theorem Spells.skipBlanks_append
    {literal : Literal}
    {chars : List Char}
    (spells : Spells literal chars)
    (rest : List Char) : skipBlanks (chars ++ rest) = chars ++ rest := by
  obtain ⟨first, others, rfl, notBlank, _⟩ := spells.exists_cons
  exact skipBlanks_cons notBlank _

/-- Between a value and the next mark there may be blanks. -/
theorem endsValue_append
    {after : List Char}
    (blank : Blank after)
    (char : Char)
    (ends : char = ',' ∨ char = ']' ∨ char = '\x7d')
    (rest : List Char) : EndsValue (after ++ char :: rest) := by
  cases after with
  | nil =>
      rintro _ ⟨⟩
      exact .inr ends
  | cons first after =>
      rintro _ ⟨⟩
      exact .inl (blank first List.mem_cons_self)

/-- Values that are short enough are read. -/
def ReadsValues (size : Nat) : Prop :=
  ∀ {literal : Literal} {chars rest : List Char},
    Spells literal chars → EndsValue rest → 2 * chars.length ≤ size →
      readValue? size (chars ++ rest) = some (literal, rest)

/-- Items that are short enough are read up to the closing bracket. -/
def ReadsItems (size : Nat) : Prop :=
  ∀ {items : List Literal} {chars : List Char} (rest : List Char),
    Listed Spells items chars → 2 * (chars.length + 1) ≤ size →
      readItems? size (skipBlanks (chars ++ ']' :: rest)) = some (items, rest)

/-- Members that are short enough are read up to the closing brace. -/
def ReadsMembers (size : Nat) : Prop :=
  ∀ {members :
      List (List TextUnit × Literal)} {chars : List Char} (rest : List Char),
    Listed (SpellsMember Spells) members chars → 2 * (chars.length + 1) ≤ size →
      readMembers? size (skipBlanks (chars ++ '\x7d' :: rest)) =
        some (members, rest)

/-- Items are read one by one, up to the closing bracket. -/
theorem readsItems_succ
    {size : Nat}
    (readsValues : ReadsValues size)
    (readsItems : ReadsItems size) : ReadsItems (size + 1) := by
  intro items chars rest spells enough
  cases spells with
  | @last item before chars after blankBefore isValue blankAfter =>
      simp only [List.length_append] at enough
      have ends := endsValue_append blankAfter ']' (.inr (.inl rfl)) rest
      have readItem := readsValues isValue ends (by omega)
      have readEnd := skipBlanks_append_cons blankAfter ']' rfl rest
      simp only [List.append_assoc]
      rw [skipBlanks_append blankBefore, isValue.skipBlanks_append, readItems?]
      simp [readItem, readEnd]
  | @more item items before chars after others blankBefore isValue blankAfter
      areItems =>
      simp only [List.length_append, List.length_cons] at enough
      have ends :=
        endsValue_append blankAfter ',' (.inl rfl) (others ++ ']' :: rest)
      have readItem := readsValues isValue ends (by omega)
      have readComma :=
        skipBlanks_append_cons blankAfter ',' rfl (others ++ ']' :: rest)
      have readOthers := readsItems rest areItems (by omega)
      simp only [List.append_assoc, List.cons_append]
      rw [skipBlanks_append blankBefore, isValue.skipBlanks_append, readItems?]
      simp [readItem, readComma, readOthers]

/-- A member is read up to what comes after its value: a closing brace, or a
comma and other members. -/
theorem SpellsMember.read
    {size : Nat}
    {member : List TextUnit × Literal}
    {chars rest : List Char}
    (spells : SpellsMember Spells member chars)
    (readsValues : ReadsValues size)
    (ends : EndsValue rest)
    (enough : 2 * chars.length ≤ size) :
    (∀ others, skipBlanks rest = '\x7d' :: others →
      readMembers? (size + 1) (skipBlanks (chars ++ rest)) =
        some ([member], others)) ∧
    ∀ others members last, skipBlanks rest = ',' :: others →
      readMembers? size (skipBlanks others) = some (members, last) →
        readMembers? (size + 1) (skipBlanks (chars ++ rest)) =
          some (member :: members, last) := by
  cases spells with
  | @parts key value keyChars before after chars isKey blankBefore blankAfter
      isValue =>
      simp only [List.length_append, List.length_cons] at enough
      have readColon :=
        skipBlanks_append_cons blankBefore ':' rfl (after ++ (chars ++ rest))
      have readValue := readsValues isValue ends (by omega)
      simp only [List.append_assoc, List.cons_append]
      rw [skipBlanks_cons rfl, readMembers?]
      simp only [isKey.read, readColon, skipBlanks_append blankAfter,
        isValue.skipBlanks_append, readValue, Option.bind_eq_bind,
        Option.bind_some]
      constructor
      · intro others isEnd
        simp [isEnd]
      · intro others members last isComma readOthers
        simp [isComma, readOthers]

/-- Members are read one by one, up to the closing brace. -/
theorem readsMembers_succ
    {size : Nat}
    (readsValues : ReadsValues size)
    (readsMembers : ReadsMembers size) : ReadsMembers (size + 1) := by
  intro members chars rest spells enough
  cases spells with
  | @last member before chars after blankBefore isMember blankAfter =>
      simp only [List.length_append] at enough
      have ends := endsValue_append blankAfter '\x7d' (.inr (.inr rfl)) rest
      have readEnd := skipBlanks_append_cons blankAfter '\x7d' rfl rest
      simp only [List.append_assoc]
      rw [skipBlanks_append blankBefore]
      exact (isMember.read readsValues ends (by omega)).1 rest readEnd
  | @more member members before chars after others blankBefore isMember
      blankAfter areMembers =>
      simp only [List.length_append, List.length_cons] at enough
      have ends :=
        endsValue_append blankAfter ',' (.inl rfl) (others ++ '\x7d' :: rest)
      have readComma :=
        skipBlanks_append_cons blankAfter ',' rfl (others ++ '\x7d' :: rest)
      have readOthers := readsMembers rest areMembers (by omega)
      simp only [List.append_assoc, List.cons_append]
      rw [skipBlanks_append blankBefore]
      exact (isMember.read readsValues ends (by omega)).2 _ _ _ readComma
        readOthers

/-- Items start with a value, so the array is not closed there. -/
theorem exists_cons_of_items
    {items : List Literal}
    {chars : List Char}
    (spells : Listed Spells items chars)
    (rest : List Char) :
    ∃ first others, skipBlanks (chars ++ rest) = first :: others ∧
      first ≠ ']' := by
  cases spells with
  | last blankBefore isValue _ =>
      obtain ⟨first, others, rfl, notBlank, notEnd⟩ := isValue.exists_cons
      simp only [List.append_assoc, List.cons_append]
      exact ⟨first, _,
        skipBlanks_append_cons blankBefore first notBlank _, notEnd⟩
  | more blankBefore isValue _ _ =>
      obtain ⟨first, others, rfl, notBlank, notEnd⟩ := isValue.exists_cons
      simp only [List.append_assoc, List.cons_append]
      exact ⟨first, _,
        skipBlanks_append_cons blankBefore first notBlank _, notEnd⟩

theorem exists_cons_of_members
    {members : List (List TextUnit × Literal)}
    {chars : List Char}
    (spells : Listed (SpellsMember Spells) members chars)
    (rest : List Char) :
    ∃ others, skipBlanks (chars ++ rest) = '"' :: others := by
  cases spells with
  | last blankBefore isMember _ =>
      cases isMember
      simp only [List.append_assoc, List.cons_append]
      exact ⟨_, skipBlanks_append_cons blankBefore '"' rfl _⟩
  | more blankBefore isMember _ _ =>
      cases isMember
      simp only [List.append_assoc, List.cons_append]
      exact ⟨_, skipBlanks_append_cons blankBefore '"' rfl _⟩

/-- What starts like a number is read as one. -/
theorem readValue?_eq_readNumber?
    (size : Nat)
    {first : Char}
    (starts : first = '-' ∨ first.isDigit = true)
    (rest : List Char) :
    readValue? (size + 1) (first :: rest) =
      (readNumber? (first :: rest)).map fun (written, rest) =>
        (.number written, rest) := by
  rw [readValue?]
  all_goals
    rintro _ ⟨⟩
    rcases starts with isMinus | isDigit
    · cases isMinus
    · cases isDigit

/-- Each kind of value is told by its first character. -/
theorem readsValues_succ
    {size : Nat}
    (readsItems : ReadsItems size)
    (readsMembers : ReadsMembers size) : ReadsValues (size + 1) := by
  intro literal chars rest spells ends enough
  cases spells with
  | null => rfl
  | boolTrue => rfl
  | boolFalse => rfl
  | @number written chars isNumber =>
      have readNumber := isNumber.read ends
      obtain ⟨first, others, rfl, starts⟩ := isNumber.exists_cons
      rw [List.cons_append] at readNumber ⊢
      rw [readValue?_eq_readNumber? size starts, readNumber]
      rfl
  | string areUnits => simp [readValue?, areUnits.read rest]
  | emptyArray blank => simp [readValue?, skipBlanks_append_cons blank ']' rfl]
  | @array items chars areItems =>
      simp only [List.length_append, List.length_cons, List.length_nil]
        at enough
      have readItems := readsItems rest areItems (by omega)
      obtain ⟨first, others, starts, notEnd⟩ :=
        exists_cons_of_items areItems (']' :: rest)
      rw [starts] at readItems
      simp [readValue?, starts, notEnd, readItems]
  | emptyObject blank =>
      simp [readValue?, skipBlanks_append_cons blank '\x7d' rfl]
  | @object members chars areMembers =>
      simp only [List.length_append, List.length_cons, List.length_nil]
        at enough
      have readMembers := readsMembers rest areMembers (by omega)
      obtain ⟨others, starts⟩ :=
        exists_cons_of_members areMembers ('\x7d' :: rest)
      rw [starts] at readMembers
      simp [readValue?, starts, readMembers]

/-- By induction on the depth, what is spelled is read. -/
theorem reads
    (size : Nat) : ReadsValues size ∧ ReadsItems size ∧ ReadsMembers size := by
  induction size with
  | zero =>
      refine ⟨fun {literal chars rest} spells ends enough => ?_,
        fun {items chars} rest spells enough =>
          ?_, fun {members chars} rest spells enough => ?_⟩
      · obtain ⟨first, others, rfl, _⟩ := spells.exists_cons
        simp at enough
      · simp at enough
      · simp at enough
  | succ size inductionHypothesis =>
      obtain ⟨readsValues, readsItems, readsMembers⟩ := inductionHypothesis
      exact ⟨readsValues_succ readsItems readsMembers,
        readsItems_succ readsValues readsItems,
        readsMembers_succ readsValues readsMembers⟩

/-- A text that the grammar spells is read as what it spells. -/
theorem IsText.ofChars?
    {literal : Literal}
    {text : String}
    (isText : IsText literal text) : ofChars? text.toList = some literal := by
  obtain ⟨before, chars, after, blankBefore, spells, blankAfter, isWhole⟩ :=
    isText
  have ends : EndsValue after := by
    intro char isHead
    exact .inl (blankAfter char (List.mem_of_mem_head? isHead))
  have readAfter : skipBlanks after = [] :=
    List.dropWhile_eq_nil_iff.mpr blankAfter
  have read := (reads (2 * text.toList.length + 2)).1 spells ends
    (by simp only [isWhole, List.length_append]; omega)
  rw [Literal.ofChars?, isWhole, skipBlanks_append blankBefore,
    spells.skipBlanks_append, ← isWhole]
  simp [read, readAfter]

end Literal
end CommonJs
