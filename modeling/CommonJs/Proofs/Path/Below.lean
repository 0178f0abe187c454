import CommonJs.Proofs.Path.Normal

/-!
# Paths below a directory

A path is below a directory when names lead from the one to the other after
all `..` steps have been carried out. A relative path without `..` steps only
goes down, and a text without a slash only makes the last name longer. So both
stay below a directory, but for the path without steps, which stays where it
is.
-/

namespace CommonJs
namespace Path

/-- A path lies strictly below a directory: at least one name comes after the
steps of the directory, and nothing but names. -/
def IsBelow (path directory : Path) : Prop :=
  ∃ names : List Component,
    names ≠ [] ∧
      (∀ name ∈ names, name.isName = true) ∧
        settle path.components = settle directory.components ++ names

theorem IsBelow.isPrefix
    {path directory : Path}
    (below : path.IsBelow directory) :
    settle directory.components <+: settle path.components := by
  obtain ⟨names, _, _, shape⟩ := below
  exact ⟨names, shape.symm⟩

/-- What lies below a directory lies below those around it. -/
theorem IsBelow.trans
    {path middle directory : Path}
    (below : path.IsBelow middle)
    (middleBelow : middle.IsBelow directory) : path.IsBelow directory := by
  obtain ⟨names, _, areNames, shape⟩ := below
  obtain ⟨before, nonempty, areNamesBefore, middleShape⟩ := middleBelow
  refine ⟨before ++ names, by simp [nonempty], ?_, ?_⟩
  · exact List.forall_mem_append.mpr ⟨areNamesBefore, areNames⟩
  · rw [shape, middleShape, List.append_assoc]

@[simp] theorem settle_components_normalize (path : Path) :
    settle path.normalize.components = settle path.components :=
  congrArg List.reverse (foldl_advance_components_normalize path)

/-- It does not matter whether the paths are normalized. -/
@[simp] theorem isBelow_normalize_left (path directory : Path) :
    path.normalize.IsBelow directory ↔ path.IsBelow directory := by
  unfold IsBelow
  rw [settle_components_normalize]

/-- To lie below a directory does not depend on its spelling. -/
@[simp] theorem isBelow_normalize_right (path directory : Path) :
    path.IsBelow directory.normalize ↔ path.IsBelow directory := by
  unfold IsBelow
  rw [settle_components_normalize]

/-! ## Paths that only go down -/

/-- Names are put on the stack as they come. -/
theorem foldl_advance_of_isName
    {names : List Component}
    (areNames : ∀ name ∈ names, name.isName = true)
    (stack : List Component) :
    names.foldl advance stack = names.reverse ++ stack := by
  induction names generalizing stack with
  | nil => rfl
  | cons name others inductionHypothesis =>
      have isName := areNames name List.mem_cons_self
      have one : advance stack name = name :: stack := by
        cases name with
        | name chars => rfl
        | _ => cases isName
      rw [List.foldl_cons, one,
        inductionHypothesis fun other present =>
          areNames other (List.mem_cons_of_mem _ present)]
      simp

/-- A step is a name unless it is `..`. -/
theorem isName_of_mem_steps
    {path : Path}
    (noUp : Component.up ∉ path.steps) :
    ∀ step ∈ path.steps, step.isName = true := by
  intro step present
  have isStep := isStep_of_mem_steps present
  cases step with
  | name chars => rfl
  | up => exact absurd present noUp
  | root => simp [IsStep, Component.chars] at isStep
  | here => simp [IsStep, Component.chars] at isStep

theorem up_notMem_steps
    {path : Path}
    (noUp : ['.', '.'] ∉ segments path.chars) : Component.up ∉ path.steps := by
  intro present
  obtain ⟨segment, inText, stepped⟩ := List.mem_filterMap.mp present
  unfold stepOf at stepped
  split_ifs at stepped with filler up
  · exact noUp (up ▸ inText)
  · cases stepped

/-- A relative path without `..` steps adds its steps to those that are
left. -/
theorem settle_components_join_of_notMem
    (directory : Path)
    {path : Path}
    (relative : path.isAbsolute = false)
    (noUp : Component.up ∉ path.steps) :
    settle (directory.join path).components =
      settle directory.components ++ path.steps := by
  rw [settle_components_join directory relative,
    foldl_advance_of_isName (isName_of_mem_steps noUp)]
  simp [settle]

/-- A relative path that does not go up leads below. -/
theorem isBelow_join
    (directory : Path)
    {path : Path}
    (relative : path.isAbsolute = false)
    (noUp : Component.up ∉ path.steps)
    (nonempty : path.steps ≠ []) : (directory.join path).IsBelow directory :=
  ⟨path.steps, nonempty, isName_of_mem_steps noUp,
    settle_components_join_of_notMem directory relative noUp⟩

/-- A path ends in the name that is joined to it last. -/
theorem fileName_normalize_child
    {name : String}
    {chars : List Char}
    (path : Path)
    (relative : (ofString name).isAbsolute = false)
    (step : (ofString name).steps = [.name chars]) :
    (path.child name).normalize.fileName = some chars := by
  have settled :
      settle (path.child name).components =
        settle path.components ++ [.name chars] := by
    rw [child,
      settle_components_join_of_notMem path relative (by simp [step]), step]
  rw [fileName, components_normalize, settled, if_neg (by simp),
    List.getLast?_concat]

/-- A path without steps stays where it is. -/
theorem normalize_join_of_steps_eq_nil
    (directory : Path)
    {path : Path}
    (relative : path.isAbsolute = false)
    (noSteps : path.steps = []) :
    (directory.join path).normalize = directory.normalize := by
  have settled :=
    settle_components_join_of_notMem directory relative (by simp [noSteps])
  rw [noSteps, List.append_nil] at settled
  exact congrArg ofComponents settled

/-! ## Longer names -/

/-- A name stays a name when a text without a slash is written after it. -/
theorem isNameStep_append
    {chars suffix : List Char}
    (isName : IsNameStep (.name chars))
    (plain : '/' ∉ suffix) : IsNameStep (.name (chars ++ suffix)) := by
  obtain ⟨⟨stepped, noSlash⟩, _⟩ := isName
  simp only [Component.chars] at stepped noSlash
  refine ⟨⟨?_, by simp [Component.chars, noSlash, plain]⟩, rfl⟩
  rcases chars with - | ⟨first, - | ⟨second, others⟩⟩
  · simp at stepped
  · have notDot : first ≠ '.' := by
      rintro rfl
      simp at stepped
    simp [Component.chars, stepOf, notDot]
  · have notDots : ¬ (first = '.' ∧ second = '.' ∧ others = []) := by
      rintro ⟨rfl, rfl, rfl⟩
      simp at stepped
    simp only [Component.chars, stepOf]
    simp_all

/-- A suffix goes to the last segment. -/
theorem joinSegments_concat_append
    (pieces : List (List Char))
    (last suffix : List Char) :
    joinSegments (pieces ++ [last]) ++ suffix =
      joinSegments (pieces ++ [last ++ suffix]) := by
  induction pieces with
  | nil => rfl
  | cons piece others inductionHypothesis =>
      obtain ⟨next, rest, shape⟩ :=
        List.exists_cons_of_ne_nil (show others ++ [last] ≠ [] by simp)
      obtain ⟨next', rest', shape'⟩ :=
        List.exists_cons_of_ne_nil
          (show others ++ [last ++ suffix] ≠ [] by simp)
      rw [List.cons_append, List.cons_append, shape, shape', joinSegments,
        joinSegments, List.append_assoc, List.cons_append, ← shape, ← shape',
        inductionHypothesis]

/-- What is written after a path goes to its last name. -/
theorem append_ofComponents
    (before : List Component)
    (chars : List Char)
    (suffix : String) :
    (ofComponents (before ++ [.name chars])).append suffix =
      ofComponents (before ++ [.name (chars ++ suffix.toList)]) := by
  have joined (pieces : List Component) :
      joinSegments ((pieces ++ [Component.name chars]).map Component.chars) ++
          suffix.toList =
        joinSegments
          ((pieces ++ [Component.name (chars ++ suffix.toList)]).map
            Component.chars) := by
    rw [List.map_append, List.map_append]
    exact joinSegments_concat_append _ _ _
  rcases before with - | ⟨first, others⟩
  · exact congrArg Path.mk (joined [])
  · cases first with
    | root =>
        exact congrArg (fun chars => Path.mk ('/' :: chars)) (joined others)
    | _ => exact congrArg Path.mk (joined (_ :: others))

/-- A text without a slash that is written after a normal path makes its last
name longer. -/
theorem settle_components_append
    {path : Path}
    {before : List Component}
    {chars : List Char}
    (normal : path.IsNormal)
    (shape : settle path.components = before ++ [.name chars])
    {suffix : String}
    (plain : '/' ∉ suffix.toList) :
    settle (path.append suffix).components =
      before ++ [.name (chars ++ suffix.toList)] := by
  have settled := settled_settle path
  have spelled :
      path.append suffix =
        ofComponents (before ++ [.name (chars ++ suffix.toList)]) := by
    rw [← append_ofComponents, ← shape]
    exact congrArg (Path.append · suffix) normal.symm
  rw [shape] at settled
  obtain ⟨settledBefore, isName⟩ :
      Settled before ∧ IsNameStep (.name chars) := by
    rcases settled.of_concat with split | ⟨_, isRoot⟩ | ⟨_, _, isUp⟩
    · exact split
    · cases isRoot
    · cases isUp
  have longer := settledBefore.concat_name (isNameStep_append isName plain)
  rw [spelled, components_ofComponents longer, if_neg (by simp),
    longer.settle_eq]

/-- A suffix without a slash does not lead elsewhere. -/
theorem IsBelow.append
    {path directory : Path}
    (below : path.IsBelow directory)
    (normal : path.IsNormal)
    {suffix : String}
    (plain : '/' ∉ suffix.toList) : (path.append suffix).IsBelow directory := by
  obtain ⟨names, nonempty, areNames, shape⟩ := below
  rcases List.eq_nil_or_concat names with none | ⟨before, last, namesShape⟩
  · exact absurd none nonempty
  · rw [List.concat_eq_append] at namesShape
    subst namesShape
    obtain ⟨areNamesBefore, isLast⟩ := List.forall_mem_append.mp areNames
    cases last with
    | name chars =>
        rw [← List.append_assoc] at shape
        refine ⟨before ++ [.name (chars ++ suffix.toList)], by simp, ?_, ?_⟩
        · exact List.forall_mem_append.mpr
            ⟨areNamesBefore, by simp [Component.isName]⟩
        · rw [settle_components_append normal shape plain, List.append_assoc]
    | _ => simp [Component.isName] at isLast

end Path
end CommonJs
