import CommonJs.Proofs.Path.Folding
import CommonJs.Proofs.Path.Normal
import Mathlib.Data.List.Forall2

/-!
# Paths that differ in the case of letters

Two paths may have the same steps but for the case of the letters in their
names, and a test of names may still tell some of these steps apart. Where it
tells none apart, nor does it after both paths have been normalized, gone up
from, or continued in the same way. To write a text after both paths is
another matter: their last names become new ones, of which the test may say
anything.
-/

namespace CommonJs

/-- Steps that are equal but for the case of letters, and of which a test of
names says the same. -/
structure Component.Recased
    (test : List Char → Bool)
    (step other : Component) : Prop where
  /-- Without case the steps are equal. -/
  foldCase : step.foldCase = other.foldCase
  /-- The test says the same of both. -/
  test : test step.chars = test other.chars

namespace Component.Recased

variable {test : List Char → Bool} {step other : Component}

theorem refl (step : Component) : step.Recased test step := ⟨rfl, rfl⟩

/-- Only names can differ. -/
theorem eq_or_name
    (recased : step.Recased test other) :
    step = other ∨ ∃ chars otherChars, step = .name chars ∧
      other = .name otherChars := by
  have folded := recased.foldCase
  cases step with
  | name chars =>
      cases other with
      | name otherChars => exact .inr ⟨chars, otherChars, rfl, rfl⟩
      | _ => cases folded
  | _ =>
      cases other with
      | name otherChars => cases folded
      | _ => exact .inl folded

/-- What is no name has no case. -/
theorem eq_iff
    {fixed : Component}
    (recased : step.Recased test other)
    (noName : fixed.isName = false) : step = fixed ↔ other = fixed := by
  rcases recased.eq_or_name with rfl | ⟨chars, otherChars, rfl, rfl⟩
  · rfl
  · constructor
    all_goals
      rintro rfl
      cases noName

end Component.Recased

namespace Path

/-- Paths whose steps are equal but for the case of letters, where a test of
names tells no two corresponding steps apart. -/
def Recased (test : List Char → Bool) (path other : Path) : Prop :=
  List.Forall₂ (Component.Recased test) path.components other.components

variable {test : List Char → Bool} {path other : Path}

/-- A path differs from itself in nothing. -/
theorem Recased.refl (path : Path) : path.Recased test path :=
  List.forall₂_same.mpr fun step _ => .refl step

/-- The relation does not depend on the spelling. -/
theorem Recased.congr
    {spelling otherSpelling : Path}
    (recased : path.Recased test other)
    (spells : spelling.SameWay path)
    (otherSpells : otherSpelling.SameWay other) :
    spelling.Recased test otherSpelling := by
  unfold Recased
  rwa [show spelling.components = _ from spells, show otherSpelling.components =
    _ from otherSpells]

/-- Two lists of steps that are equal in lower case, and of which the test says
the same, step by step. -/
theorem Recased.of_map_eq
    (folded : path.components.map Component.foldCase =
      other.components.map Component.foldCase)
    (tested :
      path.components.map (fun step => test step.chars) =
        other.components.map fun step => test step.chars) :
    path.Recased test other := by
  rw [← List.forall₂_eq_eq_eq, List.forall₂_map_left_iff,
      List.forall₂_map_right_iff]
    at folded tested
  refine folded.mp (fun step otherStep => ?_) tested
  exact fun foldCase test => ⟨foldCase, test⟩

theorem Recased.map_foldCase_eq
    (recased : path.Recased test other) :
    path.components.map Component.foldCase =
      other.components.map Component.foldCase := by
  rw [← List.forall₂_eq_eq_eq, List.forall₂_map_left_iff,
    List.forall₂_map_right_iff]
  exact recased.imp fun _ _ both => both.foldCase

/-- In lower case the paths lead the same way. -/
theorem Recased.sameWay_foldCase
    (recased : path.Recased test other) :
    path.foldCase.SameWay other.foldCase := by
  unfold SameWay
  rw [components_foldCase, components_foldCase, recased.map_foldCase_eq]

theorem Recased.chars_eq_nil_iff
    (recased : path.Recased test other) :
    path.chars = [] ↔ other.chars = [] := by
  rw [← components_eq_nil_iff, ← components_eq_nil_iff,
    ← List.length_eq_zero_iff, ← List.length_eq_zero_iff, recased.length_eq]

/-- Both paths begin at the root or neither does. -/
theorem Recased.isAbsolute_eq
    (recased : path.Recased test other) :
    path.isAbsolute = other.isAbsolute := by
  rw [Bool.eq_iff_iff, isAbsolute_iff, isAbsolute_iff]
  unfold Recased at recased
  generalize path.components = steps at recased ⊢
  generalize other.components = otherSteps at recased ⊢
  cases recased with
  | nil => rfl
  | cons first _ =>
      rw [List.head?_cons, List.head?_cons, Option.some.injEq,
        Option.some.injEq]
      exact first.eq_iff rfl

/-! ## Composed paths -/

/-- The steps of a path are its components without the anchor. -/
theorem steps_eq_filter (path : Path) :
    path.steps = path.components.filter fun component =>
      component.isName || component = .up := by
  have isStep : ∀ step ∈ path.steps, (step.isName || step = .up) = true := by
    intro step present
    have isStep := isStep_of_mem_steps present
    cases step <;> simp_all [IsStep, Component.isName, Component.chars]
  rw [components_eq, List.filter_append, List.filter_eq_self.mpr isStep]
  rcases anchor_cases path with anchored | anchored | anchored
  all_goals
    rw [anchored]
    rfl

/-- The steps correspond one by one. -/
theorem Recased.steps
    (recased : path.Recased test other) :
    List.Forall₂ (Component.Recased test) path.steps other.steps := by
  rw [steps_eq_filter, steps_eq_filter]
  refine List.rel_filter (fun step otherStep both => ?_) recased
  rcases both.eq_or_name with rfl | ⟨chars, otherChars, rfl, rfl⟩
  · rfl
  · rfl

/-- Paths that correspond may be joined to others that do. -/
theorem Recased.join
    {last otherLast : Path}
    (recased : path.Recased test other)
    (lasts : last.Recased test otherLast) :
    (path.join last).Recased test (other.join otherLast) := by
  by_cases absolute : last.isAbsolute = true
  · rwa [join_of_isAbsolute absolute,
      join_of_isAbsolute (lasts.isAbsolute_eq ▸ absolute)]
  · have relative : last.isAbsolute = false := by simpa using absolute
    by_cases empty : path.chars = []
    · rwa [join_of_chars_eq_nil empty,
        join_of_chars_eq_nil (recased.chars_eq_nil_iff.mp empty)]
    · unfold Recased
      rw [components_join empty relative,
        components_join (recased.chars_eq_nil_iff.not.mp empty)
          (lasts.isAbsolute_eq ▸ relative)]
      exact List.rel_append recased lasts.steps

theorem Recased.child
    (recased : path.Recased test other)
    (name : String) : (path.child name).Recased test (other.child name) :=
  recased.join (.refl _)

/-- The directories above correspond, if there are some. -/
theorem Recased.parent
    (recased : path.Recased test other) :
    Option.Rel (Recased test) path.parent other.parent := by
  have bothTopmost : path.parent = none ↔ other.parent = none := by
    rw [parent_eq_none_iff, parent_eq_none_iff]
    unfold Recased at recased
    generalize path.components = steps at recased ⊢
    generalize other.components = otherSteps at recased ⊢
    cases recased with
    | nil => rfl
    | cons first rest =>
        have sameEnd := rest.length_eq
        rw [List.cons.injEq, List.cons.injEq, first.eq_iff rfl,
          ← List.length_eq_zero_iff, ← List.length_eq_zero_iff, sameEnd]
        simp
  cases parent : path.parent with
  | none =>
      rw [bothTopmost.mp parent]
      exact .none
  | some above =>
      cases otherParent : other.parent with
      | none => simp [bothTopmost.mpr otherParent] at parent
      | some otherAbove =>
          refine .some ?_
          unfold Recased
          rw [components_of_parent parent, components_of_parent otherParent,
            List.dropLast_eq_take, List.dropLast_eq_take, recased.length_eq]
          exact List.forall₂_take _ recased

/-- So do all directories above, one by one. -/
theorem Recased.ancestors
    (recased : path.Recased test other) :
    List.Forall₂ (Recased test) path.ancestors other.ancestors :=
  forall₂_ancestors (fun _ _ both => both.length_eq)
    (fun _ _ both => both.parent) recased

/-! ## Normalized paths -/

/-- A step is added or taken back on both sides. -/
theorem forall₂_advance
    {stack otherStack : List Component}
    {step otherStep : Component}
    (bothStacks : List.Forall₂ (Component.Recased test) stack otherStack)
    (steps : step.Recased test otherStep) :
    List.Forall₂ (Component.Recased test) (advance stack step)
      (advance otherStack otherStep) := by
  rcases steps.eq_or_name with rfl | ⟨chars, otherChars, rfl, rfl⟩
  · cases step with
    | root => exact .cons steps .nil
    | here => exact bothStacks
    | name chars => exact .cons steps bothStacks
    | up =>
        cases bothStacks with
        | nil => exact .cons steps .nil
        | @cons top otherTop rest otherRest tops rests =>
            rcases tops.eq_or_name with rfl | ⟨chars, otherChars, rfl, rfl⟩
            · cases top with
              | name chars => exact rests
              | root => exact .cons tops rests
              | _ => exact .cons steps (.cons tops rests)
            · exact rests
  · exact .cons steps bothStacks

/-- Paths that correspond still do when they are normalized. -/
theorem Recased.normalize
    (recased : path.Recased test other) :
    path.normalize.Recased test other.normalize := by
  have settled :
      List.Forall₂ (Component.Recased test) (settle path.components)
        (settle other.components) := by
    refine List.rel_reverse
      (List.rel_foldl (fun _ _ bothStacks _ _ steps => ?_) .nil recased)
    exact forall₂_advance bothStacks steps
  have bothNone : settle path.components = [] ↔
      settle other.components = [] := by
    rw [← List.length_eq_zero_iff, ← List.length_eq_zero_iff, settled.length_eq]
  unfold Recased
  rw [components_normalize, components_normalize]
  simp only [bothNone]
  split
  · exact .cons (.refl _) .nil
  · exact settled

end Path
end CommonJs
