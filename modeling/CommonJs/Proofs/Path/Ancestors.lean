import CommonJs.Proofs.Path.Components

/-!
# Ancestors and prefixes

To go up from a path takes its last step away, and that step only. So the
ancestors of a path lead where the prefixes of its components lead, each of
them once.
-/

namespace CommonJs
namespace Path

/-- A path that has a parent comes before the ancestors of the parent. -/
theorem ancestors_of_parent
    {path above : Path}
    (isParent : path.parent = some above) :
    path.ancestors = path :: above.ancestors := by
  have notTop : path.components ≠ [] := by
    intro top
    rw [(parent_eq_none_iff path).mpr (Or.inl top)] at isParent
    cases isParent
  have oneMore : path.components.length = above.components.length + 1 := by
    have positive := List.length_pos_iff.mpr notTop
    rw [components_of_parent isParent, List.length_dropLast]
    omega
  rw [ancestors, oneMore, ancestorsWithin, isParent]
  rfl

/-- A path without a parent is its only ancestor. -/
theorem ancestors_of_parent_eq_none
    {path : Path}
    (isTop : path.parent = none) : path.ancestors = [path] := by
  unfold ancestors
  cases path.components.length with
  | zero => rfl
  | succ steps => rw [ancestorsWithin, isTop]

theorem self_mem_ancestors (path : Path) : path ∈ path.ancestors := by
  unfold ancestors
  cases path.components.length with
  | zero => exact List.mem_singleton_self path
  | succ steps => exact List.mem_cons_self

/-- The ancestors of a path have the prefixes of its components. No prefix is
left out but the empty one, which only relative paths have above them. -/
theorem mem_map_components_ancestors_iff
    {key : List Component}
    (nonempty : key ≠ [])
    (path : Path) :
    key ∈ path.ancestors.map components ↔ key <+: path.components := by
  induction length : path.components.length generalizing path with
  | zero =>
      have top : path.components = [] := List.length_eq_zero_iff.mp length
      rw [ancestors_of_parent_eq_none
        ((parent_eq_none_iff path).mpr (Or.inl top))]
      simp [top]
  | succ steps inductionHypothesis =>
      cases isParent : path.parent with
      | none =>
          rw [ancestors_of_parent_eq_none isParent]
          rcases (parent_eq_none_iff path).mp isParent with top | top
          · simp [top]
          · rw [top, ← List.nil_append [Component.root], List.prefix_concat_iff]
            simp [nonempty, top]
      | some above =>
          have climb := components_of_parent isParent
          have notTop : path.components ≠ [] := by
            intro top
            simp [top] at length
          have fewer : above.components.length = steps := by
            rw [climb, List.length_dropLast, length]
            omega
          rw [ancestors_of_parent isParent, List.map_cons, List.mem_cons,
            inductionHypothesis above fewer, climb]
          conv_rhs =>
            rw [← List.dropLast_append_getLast notTop, List.prefix_concat_iff]
          rw [List.dropLast_append_getLast notTop]

end Path
end CommonJs
