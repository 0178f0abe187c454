import CommonJs.Proofs.Resolver.Memo
import Mathlib.Data.List.Dedup

/-!
# What a memo keeps

A question for a directory is answered from the memo, or the manifest is
looked for and the answer kept. So a memo has one answer for each directory
that was asked for, whatever it was spelled like, and one look at the file
system for each; later questions take no answer back.
-/

namespace CommonJs
namespace DescriptorMemo

/-- Exactly the directories that were asked for have an answer, and each of
them was looked for once. -/
structure Kept (memo : DescriptorMemo) : Prop where
  /-- There is an answer for what was asked for. -/
  asked (key : List Component) :
    key ∈ memo.answers ↔ key ∈ memo.asked.map Path.components
  /-- There is an answer for what was looked for. -/
  looked (key : List Component) :
    key ∈ memo.answers ↔ key ∈ memo.looked.map Path.components
  /-- No directory was looked for again. -/
  lookedOnce : (memo.looked.map Path.components).Nodup

/-- A later memo has all the answers of an earlier one. -/
def Extends (later memo : DescriptorMemo) : Prop :=
  ∀ (key : List Component) (answer : Option PackageDescriptor),
    memo.answers[key]? = some answer → later.answers[key]? = some answer

section Describe

variable {memo : DescriptorMemo}

theorem kept_empty : Kept .empty where
  asked _ := by simp [empty]
  looked _ := by simp [empty]
  lookedOnce := List.nodup_nil

/-- A question either is answered from the memo or adds one answer. -/
theorem Kept.describe
    (kept : memo.Kept)
    (fileSystem : FileSystem)
    (manifest : String)
    (directory : Path) :
    (memo.describe fileSystem manifest directory).2.Kept := by
  unfold DescriptorMemo.describe
  split
  next answer remembered =>
    have present : directory.components ∈ memo.answers :=
      Std.TreeMap.mem_iff_isSome_getElem?.mpr (by rw [remembered]; rfl)
    refine { kept with asked := fun key => ?_ }
    rw [List.map_cons, List.mem_cons, ← kept.asked]
    constructor
    · exact Or.inr
    · rintro (rfl | known)
      · exact present
      · exact known
  next unknown =>
    have absent : directory.components ∉ memo.answers := by
      rw [Std.TreeMap.mem_iff_isSome_getElem?, unknown]
      simp
    exact
      { asked := fun key => by
          rw [Std.TreeMap.mem_insert, Std.compare_eq_iff_eq, List.map_cons,
            List.mem_cons, kept.asked, eq_comm]
        looked := fun key => by
          rw [Std.TreeMap.mem_insert, Std.compare_eq_iff_eq, List.map_cons,
            List.mem_cons, kept.looked, eq_comm]
        lookedOnce := by
          rw [List.map_cons, List.nodup_cons, ← kept.looked]
          exact ⟨absent, kept.lookedOnce⟩ }

/-- The size of a memo is the number of directories that were asked for, those
that lead the same way counted once. -/
theorem Kept.size_eq
    (kept : memo.Kept) :
    memo.size = (memo.asked.map Path.components).dedup.length := by
  have sameKeys :
      memo.answers.keys.Perm (memo.asked.map Path.components).dedup := by
    rw [List.perm_ext_iff_of_nodup Std.TreeMap.nodup_keys (List.nodup_dedup _)]
    intro key
    rw [Std.TreeMap.mem_keys, kept.asked, List.mem_dedup]
  rw [size, ← Std.TreeMap.length_keys, sameKeys.length_eq]

theorem Extends.refl (memo : DescriptorMemo) : memo.Extends memo :=
  fun _ _ remembered => remembered

/-- A question changes no answer given before. -/
theorem Extends.describe
    {earlier : DescriptorMemo}
    (grown : memo.Extends earlier)
    (fileSystem : FileSystem)
    (manifest : String)
    (directory : Path) :
    (memo.describe fileSystem manifest directory).2.Extends earlier := by
  intro key answer remembered
  have still := grown key answer remembered
  unfold DescriptorMemo.describe
  split
  next => exact still
  next unknown =>
    rw [Std.TreeMap.getElem?_insert, if_neg]
    · exact still
    · rw [Std.compare_eq_iff_eq]
      rintro rfl
      rw [unknown] at still
      cases still

end Describe
end DescriptorMemo

/-! ## Requests one after the other -/

namespace Resolver

variable {resolver : Resolver}

/-- A search asks questions and does nothing else to the memo. -/
theorem tracks_kept (resolver : Resolver) :
    resolver.Tracks DescriptorMemo.Kept fun _ => True where
  describe _ directory kept := kept.describe _ _ directory
  file _ _ := trivial
  stub := trivial
  missingReplacement := trivial

theorem tracks_extends (resolver : Resolver) (memo : DescriptorMemo) :
    resolver.Tracks (·.Extends memo) fun _ => True where
  describe _ directory grown := grown.describe _ _ directory
  file _ _ := trivial
  stub := trivial
  missingReplacement := trivial

/-- By induction on the requests, each directory is looked for once. -/
theorem Remembers.kept
    {memo : DescriptorMemo}
    (remembers : resolver.Remembers memo) : memo.Kept :=
  resolver.tracks_kept.requests ((remembers_iff_requests memo).mp remembers)
    DescriptorMemo.kept_empty

/-- Requests take no answer back. -/
theorem extends_of_requests
    {memo later : DescriptorMemo}
    (asks : Relation.ReflTransGen resolver.Asks memo later) :
    later.Extends memo :=
  (resolver.tracks_extends memo).requests asks (.refl memo)

end Resolver
end CommonJs
