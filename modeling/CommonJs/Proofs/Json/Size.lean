import CommonJs.Proofs.Json.Accepted
import CommonJs.Proofs.Json.Ordered
import Mathlib.Data.List.Induction

/-!
# Members and characters

Members of an object are separated by commas, so an object has no more of
them than it is written with characters. To bring the members in order makes
them no more, since those with one key fall together. So a text with an
object inside another one has at least as many characters as the inner object
has members.
-/

namespace CommonJs

theorem Json.length_insertMember_le
    {α : Type}
    (key : String)
    (value : α)
    (members : List (String × α)) :
    (insertMember key value members).length ≤ members.length + 1 := by
  induction members with
  | nil => exact Nat.le_refl _
  | cons first others inductionHypothesis =>
      unfold insertMember
      split_ifs
      all_goals
        simp only [List.length_cons]
        omega

/-- Members that are brought in order are no more than before. -/
theorem Json.length_sortMembers_le {α : Type} (members : List (String × α)) :
    (sortMembers members).length ≤ members.length := by
  induction members using List.reverseRecOn with
  | nil => exact Nat.le_refl _
  | append_singleton members member inductionHypothesis =>
      rw [sortMembers, List.foldl_append, List.length_append]
      exact (length_insertMember_le _ _ _).trans
        (Nat.succ_le_succ inductionHypothesis)

namespace Literal

section Listed

variable {α : Type} {SpellsPart : α → List Char → Prop}
variable {parts : List α} {chars : List Char}

/-- All parts of a list but the last have a comma after them. -/
theorem Listed.length_le (listed : Listed SpellsPart parts chars) :
    parts.length ≤ chars.length + 1 := by
  induction listed with
  | last => simp
  | more _ _ _ _ inductionHypothesis =>
      simp only [List.length_append, List.length_cons]
      omega

/-- A part of a list is spelled by no more characters than the list. -/
theorem Listed.exists_of_mem
    {part : α}
    (listed : Listed SpellsPart parts chars)
    (present : part ∈ parts) :
    ∃ partChars, SpellsPart part partChars ∧
      partChars.length ≤ chars.length := by
  induction listed with
  | last _ spells _ =>
      obtain rfl := List.mem_singleton.mp present
      refine ⟨_, spells, ?_⟩
      simp only [List.length_append]
      omega
  | more _ spells _ _ inductionHypothesis =>
      rcases List.mem_cons.mp present with rfl | later
      · refine ⟨_, spells, ?_⟩
        simp only [List.length_append]
        omega
      · obtain ⟨partChars, isSpelled, shorter⟩ := inductionHypothesis later
        refine ⟨partChars, isSpelled, ?_⟩
        simp only [List.length_append, List.length_cons]
        omega

end Listed

section Objects

variable {members : List (List TextUnit × Literal)} {chars : List Char}

/-- Each member of an object takes up a character at least. -/
theorem Spells.length_members_le (spells : Spells (.object members) chars) :
    members.length ≤ chars.length := by
  cases spells with
  | emptyObject => exact Nat.zero_le _
  | object listed =>
      have separated := listed.length_le
      simp only [List.length_append, List.length_cons]
      omega

/-- The value of a member is spelled by no more characters than the object. -/
theorem Spells.exists_of_mem
    {key : List TextUnit}
    {value : Literal}
    (spells : Spells (.object members) chars)
    (present : (key, value) ∈ members) :
    ∃ valueChars, Spells value valueChars ∧
      valueChars.length ≤ chars.length := by
  cases spells with
  | emptyObject => cases present
  | object listed =>
      obtain ⟨_, ⟨_, _, _, isSpelled⟩, shorter⟩ := listed.exists_of_mem present
      refine ⟨_, isSpelled, ?_⟩
      simp only [List.length_append, List.length_cons] at shorter ⊢
      omega

theorem length_of_valuesOfMembers?
    {values : List (String × Json)}
    (reads : valuesOfMembers? members = some values) :
    values.length = members.length := by
  induction members generalizing values with
  | nil =>
      obtain rfl := Option.some.inj reads
      rfl
  | cons member rest inductionHypothesis =>
      obtain ⟨_, _, reads⟩ := Option.bind_eq_some_iff.mp reads
      obtain ⟨_, _, reads⟩ := Option.bind_eq_some_iff.mp reads
      obtain ⟨others, readOthers, reads⟩ := Option.bind_eq_some_iff.mp reads
      rw [← Option.some.inj reads, List.length_cons, List.length_cons,
        inductionHypothesis readOthers]

/-- A member that is read is the value of one that is written. -/
theorem exists_of_mem_valuesOfMembers?
    {values : List (String × Json)}
    {member : String × Json}
    (reads : valuesOfMembers? members = some values)
    (present : member ∈ values) :
    ∃ written ∈ members, written.2.value? = some member.2 := by
  induction members generalizing values with
  | nil =>
      rw [← Option.some.inj reads] at present
      cases present
  | cons written rest inductionHypothesis =>
      obtain ⟨_, _, reads⟩ := Option.bind_eq_some_iff.mp reads
      obtain ⟨first, readFirst, reads⟩ := Option.bind_eq_some_iff.mp reads
      obtain ⟨others, readOthers, reads⟩ := Option.bind_eq_some_iff.mp reads
      rw [← Option.some.inj reads] at present
      rcases List.mem_cons.mp present with rfl | later
      · exact ⟨written, List.mem_cons_self, readFirst⟩
      · obtain ⟨other, among, isValue⟩ := inductionHypothesis readOthers later
        exact ⟨other, List.mem_cons_of_mem _ among, isValue⟩

end Objects

/-- An object is read from one that is written with no fewer members. -/
theorem exists_object_of_value?
    {literal : Literal}
    {members : List (String × Json)}
    (isValue : literal.value? = some (.object members)) :
    ∃ written values,
      literal = .object written ∧ valuesOfMembers? written = some values ∧
        members = Json.sortMembers values := by
  cases literal with
  | object written =>
      obtain ⟨values, reads, same⟩ := Option.map_eq_some_iff.mp isValue
      exact ⟨written, values, rfl, reads, (Json.object.inj same).symm⟩
  | _ => simp [value?] at isValue

end Literal

/-- An object inside an object has no more members than the text has
characters. -/
theorem Json.length_le_of_ofText?
    {text key : String}
    {outer members : List (String × Json)}
    (reads : ofText? text = some (.object outer))
    (present : member? outer key = some (.object members)) :
    members.length ≤ text.length := by
  obtain ⟨literal, readLiteral, isValue⟩ := Option.bind_eq_some_iff.mp reads
  obtain ⟨before, chars, after, _, spells, _, whole⟩ :=
    (Literal.ofChars?_eq_some_iff text literal).mp readLiteral
  unfold Literal.json? at isValue
  split at isValue
  next =>
    obtain ⟨written, values, rfl, readValues, rfl⟩ :=
      Literal.exists_object_of_value? isValue
    obtain ⟨listedBefore, listedAfter, split, _⟩ :=
      List.lookup_eq_some_iff.mp present
    have inside : (key, .object members) ∈ values :=
      mem_of_mem_sortMembers
        (split ▸ List.mem_append_right _ List.mem_cons_self)
    obtain ⟨⟨_, inner⟩, among, isInner⟩ :=
      Literal.exists_of_mem_valuesOfMembers? readValues inside
    obtain ⟨innerWritten, innerValues, rfl, readInner, rfl⟩ :=
      Literal.exists_object_of_value? isInner
    obtain ⟨innerChars, spellsInner, shorter⟩ := spells.exists_of_mem among
    calc (sortMembers innerValues).length
        ≤ innerValues.length := length_sortMembers_le innerValues
      _ = innerWritten.length := Literal.length_of_valuesOfMembers? readInner
      _ ≤ innerChars.length := spellsInner.length_members_le
      _ ≤ chars.length := shorter
      _ ≤ text.length := by
          rw [← String.length_toList, whole, List.length_append,
            List.length_append]
          omega
  next => cases isValue

end CommonJs
