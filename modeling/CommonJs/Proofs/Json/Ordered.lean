import CommonJs.Json.Literal
import Mathlib.Data.List.Nodup
import Mathlib.Data.String.Basic
import Mathlib.Tactic.SplitIfs

/-!
# Objects in order

A JSON value that is read from a text lists the members of each object in
ascending order of their keys, each key once, however deep the object lies.
So the last of several members is the one with the greatest key.
-/

namespace CommonJs
namespace Json

/-- Members in ascending order of keys, each key once. Texts are compared by
their characters, which is how their UTF-8 bytes compare. -/
def Ascending {α : Type} (members : List (String × α)) : Prop :=
  members.Pairwise fun member other => member.1 < other.1

/-- A value each of whose objects lists its members in ascending order. -/
inductive Ordered : Json → Prop
  | null : Ordered .null
  | bool (value : Bool) : Ordered (.bool value)
  | number (value : JsonNumber) : Ordered (.number value)
  | string (value : String) : Ordered (.string value)
  | array {items : List Json} :
      (∀ item ∈ items, Ordered item) → Ordered (.array items)
  | object {members : List (String × Json)} :
      Ascending members → (∀ member ∈ members, Ordered member.2) →
        Ordered (.object members)

section Members

variable {α : Type} {members : List (String × α)} {key : String} {value : α}

/-- Nothing but the new member comes in. -/
theorem eq_or_mem_of_mem_insertMember
    {member : String × α}
    (present : member ∈ insertMember key value members) :
    member = (key, value) ∨ member ∈ members := by
  induction members with
  | nil => exact .inl (List.mem_singleton.mp present)
  | cons first others inductionHypothesis =>
      unfold insertMember at present
      split_ifs at present with before same
      · exact List.mem_cons.mp present
      · exact (List.mem_cons.mp present).imp_right (List.mem_cons_of_mem _)
      · rcases List.mem_cons.mp present with isFirst | later
        · exact .inr (isFirst ▸ List.mem_cons_self)
        · exact (inductionHypothesis later).imp_right (List.mem_cons_of_mem _)

/-- A member is put where its name belongs, or in the place of its namesake. -/
theorem Ascending.insertMember
    (ascending : Ascending members)
    (key : String)
    (value : α) : Ascending (insertMember key value members) := by
  induction members with
  | nil => exact List.pairwise_singleton _ _
  | cons first others inductionHypothesis =>
      obtain ⟨above, rest⟩ := List.pairwise_cons.mp ascending
      unfold Json.insertMember
      split_ifs with before same
      · refine List.pairwise_cons.mpr ⟨fun other present => ?_, ascending⟩
        rcases List.mem_cons.mp present with rfl | later
        · exact before
        · exact String.lt_trans before (above other later)
      · exact List.pairwise_cons.mpr ⟨same ▸ above, rest⟩
      · refine List.pairwise_cons.mpr
          ⟨fun other present => ?_, inductionHypothesis rest⟩
        rcases eq_or_mem_of_mem_insertMember present with rfl | later
        · exact lt_of_le_of_ne (String.not_lt.mp before) (Ne.symm same)
        · exact above other later

/-- A key has one value. -/
theorem Ascending.value_eq
    (ascending : Ascending members)
    {other : α}
    (present : (key, value) ∈ members)
    (otherPresent : (key, other) ∈ members) : value = other := by
  have distinct : (members.map (·.1)).Nodup :=
    List.pairwise_map.mpr (ascending.imp fun before => ne_of_lt before)
  exact (Prod.mk.inj
    (List.inj_on_of_nodup_map distinct present otherPresent rfl)).2

/-- What is found from the end comes from the member with the greatest key
among those that pass. -/
theorem Ascending.exists_of_findSome?_reverse
    {β : Type}
    {test : String × α → Option β}
    {result : β}
    (ascending : Ascending members)
    (found : members.reverse.findSome? test = some result) :
    ∃ member ∈ members, test member = some result ∧
      ∀ other ∈ members, (test other).isSome → other.1 ≤ member.1 := by
  obtain ⟨after, member, before, split, passes, fails⟩ :=
    List.findSome?_eq_some_iff.mp found
  obtain rfl : members = before.reverse ++ member :: after.reverse := by
    simpa using congrArg List.reverse split
  refine ⟨member, by simp, passes, fun other present otherPasses => ?_⟩
  rcases List.mem_append.mp present with earlier | later
  · exact le_of_lt
      ((List.pairwise_append.mp ascending).2.2 other earlier member
        List.mem_cons_self)
  · rcases List.mem_cons.mp later with rfl | later
    · exact le_rfl
    · rw [fails other (List.mem_reverse.mp later)] at otherPasses
      cases otherPasses

/-- The last member to pass a test is the one with the greatest name. -/
theorem Ascending.findSome?_reverse_eq_some_iff
    {β : Type}
    {test : String × α → Option β}
    {result : β}
    (ascending : Ascending members) :
    members.reverse.findSome? test = some result ↔
      ∃ member ∈ members, test member = some result ∧
        ∀ other ∈ members, (test other).isSome → other.1 ≤ member.1 := by
  refine ⟨ascending.exists_of_findSome?_reverse, ?_⟩
  rintro ⟨⟨key, value⟩, present, passes, greatest⟩
  cases found : members.reverse.findSome? test with
  | none =>
      rw [List.findSome?_eq_none_iff.mp found _ (List.mem_reverse.mpr present)]
        at passes
      cases passes
  | some first =>
      obtain ⟨⟨otherKey, other⟩, otherPresent, otherPasses, otherGreatest⟩ :=
        ascending.exists_of_findSome?_reverse found
      obtain rfl : key = otherKey := le_antisymm
        (otherGreatest _ present (by rw [passes]; rfl))
        (greatest _ otherPresent (by rw [otherPasses]; rfl))
      rw [ascending.value_eq present otherPresent, otherPasses] at passes
      exact passes

/-- Members are sorted by putting them in one by one. -/
theorem ascending_sortMembers (members : List (String × α)) :
    Ascending (sortMembers members) :=
  List.foldlRecOn members _ List.Pairwise.nil
    fun _ ascending member _ => ascending.insertMember member.1 member.2

theorem mem_of_mem_sortMembers
    {member : String × α}
    (present : member ∈ sortMembers members) : member ∈ members := by
  refine List.foldlRecOn
    (motive := fun sorted => member ∈ sorted → member ∈ members) members _
    (fun absurd => by cases absurd)
    (fun sorted among other given inserted => ?_) present
  rcases eq_or_mem_of_mem_insertMember inserted with rfl | earlier
  · exact given
  · exact among earlier

end Members
end Json

/-! ## Values that are read -/

namespace Literal

mutual

/-- A value of a literal has sorted objects at every depth. -/
theorem ordered_value?
    (literal : Literal)
    (json : Json)
    (reads : literal.value? = some json) : json.Ordered := by
  cases literal with
  | null => exact Option.some.inj reads ▸ .null
  | bool value => exact Option.some.inj reads ▸ .bool value
  | number value =>
      obtain ⟨number, _, rfl⟩ := Option.map_eq_some_iff.mp reads
      exact .number number
  | string units =>
      obtain ⟨text, _, rfl⟩ := Option.map_eq_some_iff.mp reads
      exact .string text
  | array items =>
      obtain ⟨values, read, rfl⟩ := Option.map_eq_some_iff.mp reads
      exact .array (ordered_valuesOfItems? items values read)
  | object members =>
      obtain ⟨values, read, rfl⟩ := Option.map_eq_some_iff.mp reads
      exact .object (Json.ascending_sortMembers values) fun member present =>
        ordered_valuesOfMembers? members values read member
          (Json.mem_of_mem_sortMembers present)

theorem ordered_valuesOfItems?
    (items : List Literal)
    (values : List Json)
    (reads : valuesOfItems? items = some values) :
    ∀ value ∈ values, value.Ordered := by
  cases items with
  | nil => exact Option.some.inj reads ▸ by simp
  | cons item rest =>
      obtain ⟨first, readFirst, reads⟩ := Option.bind_eq_some_iff.mp reads
      obtain ⟨others, readOthers, reads⟩ := Option.bind_eq_some_iff.mp reads
      rw [← Option.some.inj reads]
      exact List.forall_mem_cons.mpr
        ⟨ordered_value? item first readFirst,
          ordered_valuesOfItems? rest others readOthers⟩

theorem ordered_valuesOfMembers?
    (members : List (List TextUnit × Literal))
    (values : List (String × Json))
    (reads : valuesOfMembers? members = some values) :
    ∀ member ∈ values, member.2.Ordered := by
  cases members with
  | nil => exact Option.some.inj reads ▸ by simp
  | cons member rest =>
      obtain ⟨key, item⟩ := member
      obtain ⟨name, _, reads⟩ := Option.bind_eq_some_iff.mp reads
      obtain ⟨first, readFirst, reads⟩ := Option.bind_eq_some_iff.mp reads
      obtain ⟨others, readOthers, reads⟩ := Option.bind_eq_some_iff.mp reads
      rw [← Option.some.inj reads]
      exact List.forall_mem_cons.mpr
        ⟨ordered_value? item first readFirst,
          ordered_valuesOfMembers? rest others readOthers⟩

end

end Literal

/-- What is read from a text has its objects in order. -/
theorem Json.ordered_ofText?
    {text : String}
    {json : Json}
    (reads : Json.ofText? text = some json) : json.Ordered := by
  obtain ⟨literal, _, reads⟩ := Option.bind_eq_some_iff.mp reads
  unfold Literal.json? at reads
  split at reads
  · exact Literal.ordered_value? literal json reads
  · cases reads

end CommonJs
