import CommonJs.Text.Utf8
import Mathlib.Tactic.SplitIfs

/-!
# Bytes that are UTF-8

The strict reader accepts the UTF-8 form of each text and gives that text
back, and it accepts nothing else: no overlong form, no surrogate, no
character that is cut short.
-/

namespace CommonJs
namespace Text

/-- The bytes of a text in UTF-8. -/
def utf8 (text : String) : List UInt8 :=
  text.toUTF8.data.toList

/-- A text is encoded character by character. -/
theorem utf8_eq_flatMap (text : String) :
    utf8 text = text.toList.flatMap String.utf8EncodeChar := by
  rw [utf8, String.toUTF8_eq_toByteArray, ← String.utf8Encode_toList,
    List.utf8Encode]
  simp

/-- The bytes are the ones that an open character still needs to become the
given one. -/
inductive PartialChar.Completes : PartialChar → List UInt8 → Char → Prop
  | last {start : PartialChar} {byte : UInt8} {char : Char} :
      start.least ≤ byte.toNat ∧ byte.toNat ≤ start.most →
      start.extend byte.toNat = .inl char → Completes start [byte] char
  | more {start next : PartialChar} {byte : UInt8} {rest : List UInt8}
      {char : Char} :
      start.least ≤ byte.toNat ∧ byte.toNat ≤ start.most →
      start.extend byte.toNat = .inr next → Completes next rest char →
      Completes start (byte :: rest) char

/-! ## The scan, character by character -/

/-- A character that was begun is found or missed, but not forgotten. -/
theorem scanUtf8_some_ne_nil (start : PartialChar) (bytes : List UInt8) :
    scanUtf8 (some start) bytes ≠ [] := by
  induction bytes generalizing start with
  | nil => exact List.cons_ne_nil _ _
  | cons byte rest inductionHypothesis =>
      rw [scanUtf8]
      split
      · split
        · exact List.cons_ne_nil _ _
        · exact inductionHypothesis _
      · exact List.cons_ne_nil _ _

/-- Only no bytes at all are no characters at all. -/
theorem scanUtf8_none_eq_nil_iff
    (bytes : List UInt8) : scanUtf8 none bytes = [] ↔ bytes = [] := by
  cases bytes with
  | nil => exact iff_of_true rfl rfl
  | cons byte rest =>
      refine iff_of_false (fun isEmpty => ?_) (List.cons_ne_nil _ _)
      rw [scanUtf8] at isEmpty
      split at isEmpty
      · exact List.cons_ne_nil _ _ isEmpty
      · exact scanUtf8_some_ne_nil _ _ isEmpty
      · exact List.cons_ne_nil _ _ isEmpty

/-- An open character is found when the bytes that it needs come next. -/
theorem scanUtf8_some_eq_cons_iff
    (start : PartialChar)
    (bytes : List UInt8)
    (char : Char)
    (found : List (Option Char)) :
    scanUtf8 (some start) bytes = some char :: found ↔
      ∃ tail rest, bytes = tail ++ rest ∧ start.Completes tail char ∧
        scanUtf8 none rest = found := by
  constructor
  · intro scanned
    induction bytes generalizing start with
    | nil => cases scanned
    | cons byte bytes inductionHypothesis =>
        rw [scanUtf8] at scanned
        split at scanned
        next inRange =>
          split at scanned
          next last extended =>
            obtain ⟨isChar, others⟩ := List.cons.inj scanned
            obtain rfl := Option.some.inj isChar
            exact ⟨[byte], bytes, rfl, .last inRange extended, others⟩
          next next extended =>
            obtain ⟨tail, rest, rfl, completes, others⟩ :=
              inductionHypothesis next scanned
            exact ⟨byte :: tail, rest, rfl,
              .more inRange extended completes, others⟩
        next => cases scanned
  · rintro ⟨tail, rest, rfl, completes, others⟩
    induction completes with
    | last inRange extended =>
        rw [List.singleton_append, scanUtf8, if_pos inRange, extended]
        exact congrArg _ others
    | more inRange extended _ inductionHypothesis =>
        rw [List.cons_append, scanUtf8, if_pos inRange, extended]
        exact inductionHypothesis

/-! ## The bytes of one character -/

theorem leadByte_eq_ascii_iff (byte : Nat) (char : Char) :
    leadByte byte = .ascii char ↔ byte < 0x80 ∧ char = Char.ofNat byte := by
  unfold leadByte
  grind

/-- The bytes that start a character of several bytes, with the ranges that
keep out overlong forms, surrogates and numbers above the last character. -/
theorem leadByte_eq_opens_iff (byte : Nat) (start : PartialChar) :
    leadByte byte = .opens start ↔
      (0xC2 ≤ byte ∧ byte < 0xE0 ∧ start = ⟨byte - 0xC0, 1, 0x80, 0xBF⟩) ∨
      (0xE0 ≤ byte ∧ byte < 0xF0 ∧
        start = ⟨byte - 0xE0, 2, if byte = 0xE0 then 0xA0 else 0x80,
          if byte = 0xED then 0x9F else 0xBF⟩) ∨
      (0xF0 ≤ byte ∧ byte < 0xF5 ∧
        start = ⟨byte - 0xF0, 3, if byte = 0xF0 then 0x90 else 0x80,
          if byte = 0xF4 then 0x8F else 0xBF⟩) := by
  unfold leadByte
  grind

/-- The last byte completes the bits. -/
theorem PartialChar.completes_last_iff
    (bits least most : Nat)
    (tail : List UInt8)
    (char : Char) :
    (⟨bits, 1, least, most⟩ : PartialChar).Completes tail char ↔
      ∃ byte, tail = [byte] ∧ least ≤ byte.toNat ∧ byte.toNat ≤ most ∧
        char = Char.ofNat (bits * 64 + (byte.toNat - 0x80)) := by
  have isLast (byte : Nat) : (⟨bits, 1, least, most⟩ :
        PartialChar).extend byte =
      .inl (Char.ofNat (bits * 64 + (byte - 0x80))) := by
    simp only [extend, Nat.le_refl, if_true]
  constructor
  · intro completes
    cases completes with
    | last inRange extended =>
        rw [isLast, Sum.inl.injEq] at extended
        exact ⟨_, rfl, inRange.1, inRange.2, extended.symm⟩
    | more _ extended _ =>
        rw [isLast] at extended
        cases extended
  · rintro ⟨byte, rfl, least_le, le_most, isChar⟩
    refine .last ⟨least_le, le_most⟩ ?_
    rw [isLast, isChar]

/-- Any other byte adds six bits. -/
theorem PartialChar.completes_more_iff
    (bits missing least most : Nat)
    (tail : List UInt8)
    (char : Char) :
    (⟨bits, missing + 2, least, most⟩ : PartialChar).Completes tail char ↔
      ∃ byte rest, tail = byte :: rest ∧ least ≤ byte.toNat ∧
        byte.toNat ≤ most ∧
        (⟨bits * 64 + (byte.toNat - 0x80), missing + 1, 0x80, 0xBF⟩ :
            PartialChar).Completes
          rest char := by
  have isMore (byte : Nat) : (⟨bits, missing + 2, least, most⟩ :
        PartialChar).extend byte =
      .inr ⟨bits * 64 + (byte - 0x80), missing + 1, 0x80, 0xBF⟩ := by
    have several : ¬ missing + 2 ≤ 1 := by omega
    simp only [extend, if_neg several]
    rfl
  constructor
  · intro completes
    cases completes with
    | last _ extended =>
        rw [isMore] at extended
        cases extended
    | more inRange extended completes =>
        rw [isMore, Sum.inr.injEq] at extended
        exact ⟨_, _, rfl, inRange.1, inRange.2, extended ▸ completes⟩
  · rintro ⟨byte, rest, rfl, least_le, le_most, completes⟩
    exact .more ⟨least_le, le_most⟩ (isMore byte.toNat) completes

/-- A character is its number. -/
theorem eq_ofNat_iff {char : Char} {number : Nat} (valid : number.isValidChar) :
    char = Char.ofNat number ↔ char.val.toNat = number := by
  constructor
  · rintro rfl
    rw [Char.ofNat, dif_pos valid]
    rfl
  · rintro rfl
    exact (Char.ofNat_toNat char).symm

/-- Two bytes hold eight to eleven bits. -/
theorem utf8EncodeChar_eq_pair_iff (char : Char) (first second : UInt8) :
    String.utf8EncodeChar char = [first, second] ↔
      (0xC2 ≤ first.toNat ∧ first.toNat < 0xE0) ∧
        (0x80 ≤ second.toNat ∧ second.toNat ≤ 0xBF) ∧
          char =
            Char.ofNat ((first.toNat - 0xC0) * 64 + (second.toNat - 0x80)) := by
  have first_lt := first.toNat_lt
  have second_lt := second.toNat_lt
  unfold String.utf8EncodeChar
  dsimp only
  constructor
  · intro encoded
    split_ifs at encoded <;>
      simp only [List.cons.injEq, UInt8.ofNat_eq_iff_mod_eq_toNat, reduceCtorEq,
        and_false, and_true] at encoded
    rw [eq_ofNat_iff (by rw [Nat.isValidChar]; omega)]
    omega
  · rintro ⟨firstRange, secondRange, isChar⟩
    rw [eq_ofNat_iff (by rw [Nat.isValidChar]; omega)] at isChar
    rw [if_neg (by omega), if_pos (by omega)]
    simp only [List.cons.injEq, UInt8.ofNat_eq_iff_mod_eq_toNat, and_true]
    omega

/-- Three bytes hold sixteen bits, without the surrogates. -/
theorem utf8EncodeChar_eq_triple_iff
    (char : Char)
    (first second third : UInt8) :
    String.utf8EncodeChar char = [first, second, third] ↔
      (0xE0 ≤ first.toNat ∧ first.toNat < 0xF0) ∧
        ((0x80 ≤ second.toNat ∧ second.toNat ≤ 0xBF) ∧
          (first.toNat = 0xE0 → 0xA0 ≤ second.toNat) ∧
            (first.toNat = 0xED → second.toNat ≤ 0x9F)) ∧
          (0x80 ≤ third.toNat ∧ third.toNat ≤ 0xBF) ∧
            char = Char.ofNat
                (((first.toNat - 0xE0) * 64 + (second.toNat - 0x80)) * 64 +
              (third.toNat - 0x80)) := by
  have first_lt := first.toNat_lt
  have second_lt := second.toNat_lt
  have third_lt := third.toNat_lt
  have valid : char.val.toNat < 0xD800 ∨ 0xDFFF < char.val.toNat ∧
      char.val.toNat < 0x110000 :=
    char.valid
  unfold String.utf8EncodeChar
  dsimp only
  constructor
  · intro encoded
    split_ifs at encoded <;>
      simp only [List.cons.injEq, UInt8.ofNat_eq_iff_mod_eq_toNat, reduceCtorEq,
        and_false, and_true] at encoded
    rw [eq_ofNat_iff (by rw [Nat.isValidChar]; omega)]
    omega
  · rintro ⟨firstRange, secondRange, thirdRange, isChar⟩
    rw [eq_ofNat_iff (by rw [Nat.isValidChar]; omega)] at isChar
    rw [if_neg (by omega), if_neg (by omega), if_pos (by omega)]
    simp only [List.cons.injEq, UInt8.ofNat_eq_iff_mod_eq_toNat, and_true]
    omega

/-- Four bytes hold twenty-one bits, up to the last character. -/
theorem utf8EncodeChar_eq_quadruple_iff
    (char : Char)
    (first second third fourth : UInt8) :
    String.utf8EncodeChar char = [first, second, third, fourth] ↔
      (0xF0 ≤ first.toNat ∧ first.toNat < 0xF5) ∧
        ((0x80 ≤ second.toNat ∧ second.toNat ≤ 0xBF) ∧
          (first.toNat = 0xF0 → 0x90 ≤ second.toNat) ∧
            (first.toNat = 0xF4 → second.toNat ≤ 0x8F)) ∧
          (0x80 ≤ third.toNat ∧ third.toNat ≤ 0xBF) ∧
            (0x80 ≤ fourth.toNat ∧ fourth.toNat ≤ 0xBF) ∧
              char = Char.ofNat
                  ((((first.toNat - 0xF0) * 64 + (second.toNat - 0x80)) * 64 +
                (third.toNat - 0x80)) * 64 + (fourth.toNat - 0x80)) := by
  have first_lt := first.toNat_lt
  have second_lt := second.toNat_lt
  have third_lt := third.toNat_lt
  have fourth_lt := fourth.toNat_lt
  have valid : char.val.toNat < 0xD800 ∨ 0xDFFF < char.val.toNat ∧
      char.val.toNat < 0x110000 :=
    char.valid
  unfold String.utf8EncodeChar
  dsimp only
  constructor
  · intro encoded
    split_ifs at encoded <;>
      simp only [List.cons.injEq, UInt8.ofNat_eq_iff_mod_eq_toNat, reduceCtorEq,
        and_false, and_true] at encoded
    rw [eq_ofNat_iff (by rw [Nat.isValidChar]; omega)]
    omega
  · rintro ⟨firstRange, secondRange, thirdRange, fourthRange, isChar⟩
    rw [eq_ofNat_iff (by rw [Nat.isValidChar]; omega)] at isChar
    rw [if_neg (by omega), if_neg (by omega), if_neg (by omega)]
    simp only [List.cons.injEq, UInt8.ofNat_eq_iff_mod_eq_toNat, and_true]
    omega

/-- A single byte is an ASCII character. -/
theorem utf8EncodeChar_eq_singleton_iff (char : Char) (byte : UInt8) :
    String.utf8EncodeChar char = [byte] ↔
      leadByte byte.toNat = .ascii char := by
  have byte_lt := byte.toNat_lt
  rw [leadByte_eq_ascii_iff]
  unfold String.utf8EncodeChar
  dsimp only
  constructor
  · intro encoded
    split_ifs at encoded <;>
      simp only [List.cons.injEq, UInt8.ofNat_eq_iff_mod_eq_toNat, reduceCtorEq,
        and_false, and_true] at encoded
    rw [eq_ofNat_iff (by rw [Nat.isValidChar]; omega)]
    omega
  · rintro ⟨range, isChar⟩
    rw [eq_ofNat_iff (by rw [Nat.isValidChar]; omega)] at isChar
    rw [if_pos (by omega)]
    simp only [List.cons.injEq, UInt8.ofNat_eq_iff_mod_eq_toNat, and_true]
    omega

/-- A character of several bytes is opened by the first one and completed by
the others. -/
theorem exists_opens_of_utf8EncodeChar
    {char : Char}
    {byte second : UInt8}
    {tail : List UInt8}
    (encoded : String.utf8EncodeChar char = byte :: second :: tail) :
    ∃ start, leadByte byte.toNat = .opens start ∧
      start.Completes (second :: tail) char := by
  match tail with
  | [] =>
      obtain ⟨range, _, isChar⟩ :=
        (utf8EncodeChar_eq_pair_iff char byte second).mp encoded
      refine ⟨_,
        (leadByte_eq_opens_iff _ _).mpr (.inl ⟨range.1, range.2, rfl⟩), ?_⟩
      rw [PartialChar.completes_last_iff]
      grind
  | [third] =>
      obtain ⟨range, _, _, isChar⟩ :=
        (utf8EncodeChar_eq_triple_iff char byte second third).mp encoded
      refine ⟨_, (leadByte_eq_opens_iff _ _).mpr
        (.inr (.inl ⟨range.1, range.2, rfl⟩)), ?_⟩
      rw [PartialChar.completes_more_iff]
      refine ⟨second, [third], rfl, by grind, by grind, ?_⟩
      rw [PartialChar.completes_last_iff]
      grind
  | [third, fourth] =>
      obtain ⟨range, _, _, _, isChar⟩ :=
        (utf8EncodeChar_eq_quadruple_iff char byte second third fourth).mp
          encoded
      refine ⟨_, (leadByte_eq_opens_iff _ _).mpr
        (.inr (.inr ⟨range.1, range.2, rfl⟩)), ?_⟩
      rw [PartialChar.completes_more_iff]
      refine ⟨second, [third, fourth], rfl, by grind, by grind, ?_⟩
      rw [PartialChar.completes_more_iff]
      refine ⟨third, [fourth], rfl, by grind, by grind, ?_⟩
      rw [PartialChar.completes_last_iff]
      grind
  | third :: fourth :: fifth :: rest =>
      have length := congrArg List.length encoded
      have atMost := char.utf8Size_le_four
      simp only [String.length_utf8EncodeChar, List.length_cons] at length
      omega

theorem utf8EncodeChar_of_completes
    {char : Char}
    {byte : UInt8}
    {start : PartialChar}
    {tail : List UInt8}
    (opens : leadByte byte.toNat = .opens start)
    (completes : start.Completes tail char) :
    String.utf8EncodeChar char = byte :: tail := by
  rcases (leadByte_eq_opens_iff _ _).mp opens with
    ⟨least, most, rfl⟩ | ⟨least, most, rfl⟩ | ⟨least, most, rfl⟩
  · obtain ⟨second, rfl, _, _, isChar⟩ :=
      (PartialChar.completes_last_iff _ _ _ _ _).mp completes
    exact (utf8EncodeChar_eq_pair_iff _ _ _).mpr (by grind)
  · obtain ⟨second, _, rfl, _, _, completes⟩ :=
      (PartialChar.completes_more_iff _ _ _ _ _ _).mp completes
    obtain ⟨third, rfl, _, _, isChar⟩ :=
      (PartialChar.completes_last_iff _ _ _ _ _).mp completes
    exact (utf8EncodeChar_eq_triple_iff _ _ _ _).mpr (by grind)
  · obtain ⟨second, _, rfl, _, _, completes⟩ :=
      (PartialChar.completes_more_iff _ _ _ _ _ _).mp completes
    obtain ⟨third, _, rfl, _, _, completes⟩ :=
      (PartialChar.completes_more_iff _ _ _ _ _ _).mp completes
    obtain ⟨fourth, rfl, _, _, isChar⟩ :=
      (PartialChar.completes_last_iff _ _ _ _ _).mp completes
    exact (utf8EncodeChar_eq_quadruple_iff _ _ _ _ _).mpr (by grind)

/-! ## Whole texts -/

/-- The first character of a byte sequence takes up its UTF-8 form. -/
theorem scanUtf8_none_eq_cons_iff
    (bytes : List UInt8)
    (char : Char)
    (found : List (Option Char)) :
    scanUtf8 none bytes = some char :: found ↔
      ∃ rest, bytes = String.utf8EncodeChar char ++ rest ∧
        scanUtf8 none rest = found := by
  constructor
  · intro scanned
    cases bytes with
    | nil => cases scanned
    | cons byte bytes =>
        rw [scanUtf8] at scanned
        split at scanned
        next first isAscii =>
          obtain ⟨isChar, others⟩ := List.cons.inj scanned
          obtain rfl := Option.some.inj isChar
          rw [(utf8EncodeChar_eq_singleton_iff first byte).mpr isAscii]
          exact ⟨bytes, rfl, others⟩
        next start opens =>
          obtain ⟨tail, rest, rfl, completes, others⟩ :=
            (scanUtf8_some_eq_cons_iff start bytes char found).mp scanned
          rw [utf8EncodeChar_of_completes opens completes]
          exact ⟨rest, rfl, others⟩
        next => cases scanned
  · rintro ⟨rest, rfl, others⟩
    cases encoded : String.utf8EncodeChar char with
    | nil =>
        have length := congrArg List.length encoded
        have positive := char.utf8Size_pos
        simp only [String.length_utf8EncodeChar, List.length_nil] at length
        omega
    | cons byte tail =>
        rw [List.cons_append, scanUtf8]
        cases tail with
        | nil =>
            rw [(utf8EncodeChar_eq_singleton_iff char byte).mp encoded]
            exact congrArg _ others
        | cons second tail =>
            obtain ⟨start, opens, completes⟩ :=
              exists_opens_of_utf8EncodeChar encoded
            rw [opens]
            exact (scanUtf8_some_eq_cons_iff start _ char found).mpr
              ⟨second :: tail, rest, rfl, completes, others⟩

/-- Bytes are scanned without a miss if they encode what is found. -/
theorem scanUtf8_eq_map_some_iff (bytes : List UInt8) (chars : List Char) :
    scanUtf8 none bytes = chars.map some ↔
      bytes = chars.flatMap String.utf8EncodeChar := by
  induction chars generalizing bytes with
  | nil => exact scanUtf8_none_eq_nil_iff bytes
  | cons char chars inductionHypothesis =>
      rw [List.map_cons, scanUtf8_none_eq_cons_iff, List.flatMap_cons]
      simp only [inductionHypothesis, exists_eq_right]

theorem mapM_id_eq_some_iff (found : List (Option Char)) (chars : List Char) :
    found.mapM id = some chars ↔ found = chars.map some := by
  induction found generalizing chars with
  | nil => cases chars <;> simp
  | cons first rest inductionHypothesis =>
      rw [List.mapM_cons]
      cases first with
      | none => cases chars <;> simp
      | some char =>
          cases chars with
          | nil => simp [Option.bind_eq_some_iff]
          | cons other others =>
              rw [List.map_cons, List.cons.injEq, ← inductionHypothesis]
              simp only [id_eq, Option.bind_eq_bind, Option.bind_some,
                Option.pure_def, Option.bind_eq_some_iff, Option.some.injEq,
                List.cons.injEq]
              grind

/-- The strict reader reads the bytes of a text as that text, and no other
bytes. -/
theorem ofUtf8?_eq_some_iff (bytes : List UInt8) (text : String) :
    ofUtf8? bytes = some text ↔ bytes = utf8 text := by
  rw [ofUtf8?, Option.map_eq_some_iff, utf8_eq_flatMap,
    ← scanUtf8_eq_map_some_iff]
  simp only [mapM_id_eq_some_iff]
  constructor
  · rintro ⟨chars, scanned, rfl⟩
    rw [scanned, String.toList_ofList]
  · intro scanned
    exact ⟨text.toList, scanned, String.ofList_toList⟩

end Text
end CommonJs
