import Std.Data.TreeMap
import CommonJs.Path.Basic

/-!
# Order and maps of paths

Paths are ordered step by step, not by their texts: the root comes before
`.`, `.` before `..`, and all of them before names, which are compared
character by character. So `/p/a/x` comes before `/p/a-b`. A map of paths
holds one entry per list of components.
-/

namespace CommonJs
namespace Component

/-- The place of the kind of a step in the order of kinds. -/
def rank : Component → Nat
  | root => 0
  | here => 1
  | up => 2
  | name _ => 3

/-- A component is known by its kind and its characters. -/
theorem rank_chars_injective
    {first second : Component}
    (sameRank : first.rank = second.rank)
    (sameChars : first.chars = second.chars) : first = second := by
  cases first <;> cases second <;> simp [rank, chars] at sameRank sameChars ⊢
  exact sameChars

instance : Ord Component := ⟨compareLex (compareOn rank) (compareOn chars)⟩

instance : Std.TransOrd Component :=
  inferInstanceAs (Std.TransCmp (compareLex (compareOn rank) (compareOn chars)))

instance : Std.LawfulEqOrd Component where
  compare_self := by
    intro component
    have both : compareLex (compareOn rank) (compareOn chars) component
        component = .eq :=
      Std.ReflCmp.compare_self
    exact both
  eq_of_compare := by
    intro first second same
    have both : compareLex (compareOn rank) (compareOn chars) first second =
        .eq := same
    rw [compareLex_eq_eq] at both
    exact rank_chars_injective
      (Std.LawfulEqOrd.eq_of_compare (α := Nat) both.1)
      (Std.LawfulEqOrd.eq_of_compare (α := List Char) both.2)

end Component

/-- A map whose keys are the ways that paths lead. -/
abbrev PathMap (α : Type) := Std.TreeMap (List Component) α

end CommonJs
