import CommonJs.Path.Normal
import CommonJs.Proofs.Path.Components

/-!
# The normal form of paths

The steps that normalization leaves are settled: after the root come names
only, and without a root some `..` steps come before the names. A settled
list of steps is found again in the path written from it, and to carry out
its steps changes nothing. So normalization is idempotent, a normalized path
is known by its components, and what is above it is normalized too.
-/

namespace CommonJs
namespace Path

/-! ## Settled steps -/

/-- A component that a segment of a text stands for. -/
def IsStep (component : Component) : Prop :=
  stepOf component.chars = some component ∧ '/' ∉ component.chars

/-- A step that is a name. -/
def IsNameStep (component : Component) : Prop :=
  IsStep component ∧ component.isName = true

/-- The root and names, or some `..` steps and names. -/
inductive Settled : List Component → Prop
  | absolute (names : List Component) :
      (∀ name ∈ names, IsNameStep name) → Settled (.root :: names)
  | relative (ups : Nat) (names : List Component) :
      (∀ name ∈ names, IsNameStep name) →
        Settled (List.replicate ups .up ++ names)

theorem isStep_up : IsStep .up := by
  simp [IsStep, Component.chars]

/-- What a path is read as goes up or down. -/
theorem isStep_of_mem_steps
    {path : Path}
    {step : Component}
    (present : step ∈ path.steps) : IsStep step := by
  obtain ⟨segment, inText, stepped⟩ := List.mem_filterMap.mp present
  have plain := slash_notMem_of_mem_segments inText
  unfold stepOf at stepped
  split_ifs at stepped with filler up
  · simp only [Option.some.injEq] at stepped
    rw [← stepped]
    exact isStep_up
  · simp only [Option.some.injEq] at stepped
    rw [← stepped]
    exact ⟨by simp [Component.chars, stepOf, filler, up], plain⟩

theorem settled_nil : Settled [] :=
  Settled.relative 0 [] (by simp)

/-- A settled list goes on with a name. -/
theorem Settled.concat_name
    {components : List Component}
    {name : Component}
    (settled : Settled components)
    (isName : IsNameStep name) : Settled (components ++ [name]) := by
  cases settled with
  | absolute names named =>
      refine Settled.absolute _ fun other present => ?_
      rcases List.mem_append.mp present with earlier | last
      · exact named other earlier
      · rw [List.mem_singleton.mp last]
        exact isName
  | relative ups names named =>
      rw [List.append_assoc]
      refine Settled.relative _ _ fun other present => ?_
      rcases List.mem_append.mp present with earlier | last
      · exact named other earlier
      · rw [List.mem_singleton.mp last]
        exact isName

/-- The last step of a settled list is a name after settled steps, the root
on its own, or a `..` after nothing but `..`. -/
theorem Settled.of_concat
    {components : List Component}
    {last : Component}
    (settled : Settled (components ++ [last])) :
    (Settled components ∧ IsNameStep last) ∨
      (components = [] ∧ last = .root) ∨
      ∃ ups, components = List.replicate ups .up ∧ last = .up := by
  generalize shape : components ++ [last] = whole at settled
  cases settled with
  | absolute names named =>
      rcases List.eq_nil_or_concat names with none | ⟨before, name, namesShape⟩
      · subst none
        obtain ⟨empty, isLast⟩ :=
          List.append_eq_singleton_iff.mp shape |>.resolve_right (by simp)
        exact Or.inr (Or.inl ⟨empty, by simpa using isLast⟩)
      · rw [List.concat_eq_append] at namesShape
        subst namesShape
        rw [← List.cons_append] at shape
        obtain ⟨sameBefore, sameLast⟩ := List.append_inj' shape rfl
        obtain rfl : last = name := by simpa using sameLast
        refine Or.inl ⟨?_, named last (by simp)⟩
        rw [sameBefore]
        exact Settled.absolute _ fun other present =>
          named other (by simp [present])
  | relative ups names named =>
      rcases List.eq_nil_or_concat names with none | ⟨before, name, namesShape⟩
      · subst none
        rw [List.append_nil] at shape
        cases ups with
        | zero => simp at shape
        | succ ups =>
            rw [List.replicate_succ'] at shape
            obtain ⟨sameBefore, sameLast⟩ := List.append_inj' shape rfl
            exact Or.inr (Or.inr ⟨ups, sameBefore, by simpa using sameLast⟩)
      · rw [List.concat_eq_append] at namesShape
        subst namesShape
        rw [← List.append_assoc] at shape
        obtain ⟨sameBefore, sameLast⟩ := List.append_inj' shape rfl
        obtain rfl : last = name := by simpa using sameLast
        refine Or.inl ⟨?_, named last (by simp)⟩
        rw [sameBefore]
        exact Settled.relative _ _ fun other present =>
          named other (by simp [present])

/-- Steps back may stand at the front. -/
theorem settled_replicate_up
    (ups : Nat) : Settled (List.replicate ups .up) := by
  have settled := Settled.relative ups [] (by simp)
  rwa [List.append_nil] at settled

/-- The last step may be taken away. -/
theorem Settled.dropLast
    {components : List Component}
    (settled : Settled components) : Settled components.dropLast := by
  rcases List.eq_nil_or_concat components with none | ⟨before, last, shape⟩
  · rw [none]
    exact settled_nil
  · rw [List.concat_eq_append] at shape
    subst shape
    rw [List.dropLast_concat]
    rcases settled.of_concat with ⟨earlier, _⟩ | ⟨empty, _⟩ | ⟨ups, allUp, _⟩
    · exact earlier
    · rw [empty]
      exact settled_nil
    · rw [allUp]
      exact settled_replicate_up ups

/-- No segment stands for `.`. -/
theorem Settled.here_notMem
    {components : List Component}
    (settled : Settled components) : Component.here ∉ components := by
  intro present
  have noName : ¬ IsNameStep .here := by simp [IsNameStep, Component.isName]
  cases settled with
  | absolute names named =>
      rcases List.mem_cons.mp present with equal | later
      · cases equal
      · exact noName (named _ later)
  | relative ups names named =>
      rcases List.mem_append.mp present with up | later
      · cases List.eq_of_mem_replicate up
      · exact noName (named _ later)

/-! ## Carrying out steps -/

/-- One more step keeps the steps settled. -/
theorem Settled.advance
    {stack : List Component}
    {component : Component}
    (settled : Settled stack.reverse)
    (isStep : component = .root ∨ component = .here ∨ IsStep component) :
    Settled (advance stack component).reverse := by
  cases component with
  | root => exact Settled.absolute [] (by simp)
  | here => exact settled
  | name chars =>
      have isName : IsNameStep (.name chars) := ⟨by simpa using isStep, rfl⟩
      rw [Path.advance, List.reverse_cons]
      exact settled.concat_name isName
  | up =>
      cases stack with
      | nil => exact settled_replicate_up 1
      | cons top rest =>
          rw [List.reverse_cons] at settled
          cases top with
          | name chars => simpa [Path.advance] using settled.dropLast
          | root => simpa [Path.advance] using settled
          | here => exact absurd (by simp) settled.here_notMem
          | up =>
              rcases settled.of_concat with ⟨_, isName⟩ | ⟨_, isRoot⟩ |
                ⟨ups, allUp, _⟩
              · simp [IsNameStep, Component.isName] at isName
              · cases isRoot
              · simp only [Path.advance, List.reverse_cons, allUp]
                rw [← List.replicate_succ', ← List.replicate_succ']
                exact settled_replicate_up (ups + 1 + 1)

/-- What is settled stays so step by step. -/
theorem Settled.foldl_advance
    {components : List Component}
    (stack : List Component)
    (settled : Settled stack.reverse)
    (areSteps : ∀ component ∈ components,
      component = .root ∨ component = .here ∨ IsStep component) :
    Settled (components.foldl Path.advance stack).reverse := by
  induction components generalizing stack with
  | nil => exact settled
  | cons component others inductionHypothesis =>
      exact inductionHypothesis _
        (settled.advance (areSteps component List.mem_cons_self))
        fun other present => areSteps other (List.mem_cons_of_mem _ present)

/-- Apart from its beginning a path is steps. -/
theorem isStep_of_mem_components
    {path : Path}
    {component : Component}
    (present : component ∈ path.components) :
    component = .root ∨ component = .here ∨ IsStep component := by
  rw [components_eq, List.mem_append] at present
  rcases present with anchors | step
  · rcases anchor_cases path with anchored | anchored | anchored
    all_goals simp_all
  · exact Or.inr (Or.inr (isStep_of_mem_steps step))

/-- The steps of a path are settled after they have been carried out. -/
theorem settled_settle (path : Path) : Settled (settle path.components) :=
  Settled.foldl_advance [] settled_nil
    fun _ present => isStep_of_mem_components present

/-- Settled steps take nothing back. -/
theorem Settled.settle_eq
    {components : List Component}
    (settled : Settled components) : settle components = components := by
  unfold settle
  rw [List.reverse_eq_iff]
  induction components using List.reverseRecOn with
  | nil => rfl
  | append_singleton before last inductionHypothesis =>
      rw [List.foldl_append, List.reverse_append]
      rcases settled.of_concat with ⟨earlier, isName⟩ | ⟨empty, isRoot⟩ |
        ⟨ups, allUp, isUp⟩
      · rw [inductionHypothesis earlier]
        cases last with
        | name chars => rfl
        | _ => simp [IsNameStep, Component.isName] at isName
      · rw [empty, isRoot]
        rfl
      · rw [inductionHypothesis (allUp ▸ settled_replicate_up ups), allUp, isUp,
          List.reverse_replicate]
        cases ups with
        | zero => rfl
        | succ ups => rfl

/-- The root stays below everything that follows. -/
theorem getLast_foldl_advance
    {stack components : List Component}
    (rooted : stack.getLast? = some .root) :
    (components.foldl advance stack).getLast? = some .root := by
  induction components generalizing stack with
  | nil => exact rooted
  | cons component others inductionHypothesis =>
      apply inductionHypothesis
      cases stack with
      | nil => simp at rooted
      | cons top rest =>
          cases component with
          | root => rfl
          | here => exact rooted
          | name chars => simpa [advance, List.getLast?_cons_cons] using rooted
          | up =>
              cases top with
              | name chars =>
                  cases rest with
                  | nil => simp at rooted
                  | cons next others =>
                      simpa [advance, List.getLast?_cons_cons] using rooted
              | root => exact rooted
              | here => simpa [advance, List.getLast?_cons_cons] using rooted
              | up => simpa [advance, List.getLast?_cons_cons] using rooted

/-- Without a root in them, steps lead to none. -/
theorem root_notMem_foldl_advance
    {stack components : List Component}
    (noRoot : Component.root ∉ stack)
    (noRootAfter : Component.root ∉ components) :
    Component.root ∉ components.foldl advance stack := by
  induction components generalizing stack with
  | nil => exact noRoot
  | cons component others inductionHypothesis =>
      rw [List.mem_cons, not_or] at noRootAfter
      refine inductionHypothesis ?_ noRootAfter.2
      cases component with
      | root => exact absurd rfl noRootAfter.1
      | here => exact noRoot
      | name chars => simpa [advance] using noRoot
      | up =>
          cases stack with
          | nil => simp [advance]
          | cons top rest => cases top <;> simp_all [advance]

/-! ## Normalized paths -/

/-- A path is normal when normalization leaves it as it is. -/
def IsNormal (path : Path) : Prop :=
  path.normalize = path

instance (path : Path) : Decidable path.IsNormal :=
  inferInstanceAs (Decidable (path.normalize = path))

/-- Steps are read as they are written. -/
theorem filterMap_stepOf_chars
    {components : List Component}
    (areSteps : ∀ component ∈ components, IsStep component) :
    (components.map Component.chars).filterMap stepOf = components := by
  induction components with
  | nil => rfl
  | cons component others inductionHypothesis =>
      rw [List.map_cons, List.filterMap_cons,
        (areSteps component List.mem_cons_self).1,
        inductionHypothesis fun other present =>
          areSteps other (List.mem_cons_of_mem _ present)]

theorem notMem_of_mem_map_chars
    {components : List Component}
    (areSteps : ∀ component ∈ components, IsStep component) :
    ∀ piece ∈ components.map Component.chars, '/' ∉ piece := by
  intro piece present
  obtain ⟨component, member, rfl⟩ := List.mem_map.mp present
  exact (areSteps component member).2

/-- The steps of a settled list that does not start at the root are steps of
segments. -/
theorem isStep_of_mem_relative
    (ups : Nat)
    {names : List Component}
    (named : ∀ name ∈ names, IsNameStep name) :
    ∀ component ∈ List.replicate ups .up ++ names, IsStep component := by
  intro component present
  rcases List.mem_append.mp present with up | name
  · rw [List.eq_of_mem_replicate up]
    exact isStep_up
  · exact (named component name).1

/-- Steps that do not start at the root are written without an anchor. -/
theorem ofComponents_eq_ofSegments
    {components : List Component}
    (areSteps : ∀ component ∈ components, IsStep component)
    (nonempty : components ≠ []) :
    ofComponents components =
      ofSegments none (components.map Component.chars) := by
  obtain ⟨first, others, whole⟩ := List.exists_cons_of_ne_nil nonempty
  have firstStep : IsStep first := areSteps first (by simp [whole])
  rw [whole]
  cases first with
  | root => simp [IsStep, Component.chars] at firstStep
  | _ => rfl

/-- Nothing but a list without steps is written as a path with other
components. -/
theorem components_ofComponents
    {components : List Component}
    (settled : Settled components) :
    (ofComponents components).components =
      if components = [] then [.here] else components := by
  cases settled with
  | absolute names named =>
      have areSteps : ∀ name ∈ names, IsStep name :=
        fun name present => (named name present).1
      rw [ofComponents,
        components_ofSegments_root (notMem_of_mem_map_chars areSteps),
        filterMap_stepOf_chars areSteps]
      simp
  | relative ups names named =>
      have areSteps := isStep_of_mem_relative ups named
      generalize List.replicate ups Component.up ++ names =
        components at areSteps
      cases components with
      | nil => rfl
      | cons first others =>
          have firstStep : IsStep first := areSteps first List.mem_cons_self
          have begins : ∀ piece ∈ ((first :: others).map Component.chars).head?,
              stepOf piece ≠ none := by
            intro piece isFirst
            obtain rfl : first.chars = piece := by simpa using isFirst
            simp [firstStep.1]
          rw [ofComponents_eq_ofSegments areSteps (List.cons_ne_nil _ _),
            components_ofSegments_none
              (notMem_of_mem_map_chars areSteps) begins,
            filterMap_stepOf_chars areSteps]
          simp

/-- A normal path is the settled steps, or stays where it is. -/
theorem components_normalize (path : Path) :
    path.normalize.components =
      if settle path.components = [] then [.here] else settle path.components :=
  components_ofComponents (settled_settle path)

/-- A path written from settled steps is normal. -/
theorem Settled.isNormal
    {components : List Component}
    (settled : Settled components) : (ofComponents components).IsNormal := by
  unfold IsNormal normalize
  rw [components_ofComponents settled]
  split_ifs with none
  · rw [none]
    rfl
  · rw [settled.settle_eq]

/-- What is normalized is normal. -/
theorem isNormal_normalize (path : Path) : path.normalize.IsNormal :=
  (settled_settle path).isNormal

@[simp] theorem normalize_normalize (path : Path) :
    path.normalize.normalize = path.normalize :=
  isNormal_normalize path

/-- Paths that lead the same way have one normal form. -/
theorem SameWay.normalize_eq
    {first second : Path}
    (same : first.SameWay second) : first.normalize = second.normalize :=
  congrArg (fun components => ofComponents (settle components)) same

/-- A normal path is known by its components. -/
theorem IsNormal.eq_of_sameWay
    {first second : Path}
    (firstNormal : first.IsNormal)
    (secondNormal : second.IsNormal)
    (same : first.SameWay second) : first = second := by
  rw [← firstNormal, ← secondNormal, same.normalize_eq]

/-- Normalization keeps whether a path starts at the root. -/
@[simp] theorem isAbsolute_normalize (path : Path) :
    path.normalize.isAbsolute = path.isAbsolute := by
  rw [Bool.eq_iff_iff, isAbsolute_iff, components_normalize]
  by_cases absolute : path.isAbsolute = true
  · have rooted : (settle path.components).head? = some .root := by
      rw [isAbsolute_iff] at absolute
      obtain ⟨others, shape⟩ := List.head?_eq_some_iff.mp absolute
      rw [shape, settle, List.head?_reverse, List.foldl_cons]
      exact getLast_foldl_advance rfl
    have nonempty : settle path.components ≠ [] := by
      intro none
      simp [none] at rooted
    simp [nonempty, rooted, absolute]
  · have unrooted : Component.root ∉ path.components := by
      rw [components_eq, List.mem_append, not_or]
      refine ⟨?_, root_notMem_steps path⟩
      rw [← anchor_eq_root_iff] at absolute
      rcases anchor_cases path with anchored | anchored | anchored
      all_goals simp_all
    have noRoot : Component.root ∉ settle path.components := by
      rw [settle, List.mem_reverse]
      exact root_notMem_foldl_advance (List.not_mem_nil) unrooted
    simp only [absolute, Bool.false_eq_true, iff_false]
    split_ifs with none
    · simp
    · intro rooted
      exact noRoot (List.mem_of_mem_head? rooted)

/-! ## Below a normalized path -/

/-- The steps of a relative path are carried out after those of the path that
it is joined to. -/
theorem settle_components_join
    (first : Path)
    {second : Path}
    (relative : second.isAbsolute = false) :
    settle (first.join second).components =
      (second.steps.foldl advance
        (first.components.foldl advance [])).reverse := by
  by_cases empty : first.chars = []
  · have unrooted : second.anchor ≠ some .root := by
      rw [Ne, anchor_eq_root_iff, relative]
      exact Bool.false_ne_true
    rw [join_of_chars_eq_nil empty, (components_eq_nil_iff first).mpr empty,
      components_eq second]
    rcases anchor_cases second with anchored | anchored | anchored
    · rw [anchored]
      rfl
    · exact absurd anchored unrooted
    · rw [anchored]
      rfl
  · rw [components_join empty relative, settle, List.foldl_append]

/-- The steps of a path lead where those of its normal form do. -/
theorem foldl_advance_components_normalize (path : Path) :
    path.normalize.components.foldl advance [] =
      path.components.foldl advance [] := by
  have settled := (settled_settle path).settle_eq
  rw [components_normalize]
  split
  next none =>
    have nothing : path.components.foldl advance [] = [] := by
      simpa [settle] using none
    rw [nothing]
    rfl
  next =>
    unfold settle at settled ⊢
    exact List.reverse_injective settled

/-- It does not matter whether a path is normalized before another one is
joined to it. -/
theorem normalize_join (first second : Path) :
    (first.normalize.join second).normalize =
      (first.join second).normalize := by
  by_cases absolute : second.isAbsolute = true
  · rw [join_of_isAbsolute absolute, join_of_isAbsolute absolute]
  · have relative : second.isAbsolute = false := by simpa using absolute
    have joined (path : Path) : (path.join second).normalize =
        ofComponents (second.steps.foldl advance
          (path.components.foldl advance [])).reverse :=
      congrArg ofComponents (settle_components_join path relative)
    rw [joined, joined, foldl_advance_components_normalize]

/-! ## Above a normal path -/

/-- Written steps have nothing to drop at the end. -/
theorem trimFiller_map_chars
    {components : List Component}
    (areSteps : ∀ component ∈ components, IsStep component) :
    trimFiller (components.map Component.chars) =
      components.map Component.chars := by
  rcases List.eq_nil_or_concat components with none | ⟨before, last, shape⟩
  · rw [none]
    rfl
  · rw [List.concat_eq_append] at shape
    have lastStep : IsStep last := areSteps last (by simp [shape])
    rw [shape, List.map_append, List.map_singleton]
    exact trimFiller_append_step lastStep.1 _

/-- The parent of an absolute path written from names. -/
theorem parent_ofComponents_root
    {names : List Component}
    (named : ∀ name ∈ names, IsNameStep name)
    (nonempty : names ≠ []) :
    (ofComponents (.root :: names)).parent =
      some (ofComponents (.root :: names.dropLast)) := by
  have areSteps : ∀ name ∈ names, IsStep name :=
    fun name present => (named name present).1
  have shape :
      segments (ofComponents (.root :: names)).chars =
        [] :: names.map Component.chars := by
    rw [ofComponents, ofSegments, segments_cons_slash,
      segments_joinSegments (by simpa using nonempty)
        (notMem_of_mem_map_chars areSteps)]
  have anchored : (ofComponents (.root :: names)).anchor = some .root :=
    (anchor_eq_root_iff _).mpr rfl
  have dropped :
      trimFiller (names.map Component.chars).dropLast =
        names.dropLast.map Component.chars := by
    rw [← List.map_dropLast]
    exact trimFiller_map_chars fun name present =>
      areSteps name (List.dropLast_subset _ present)
  unfold parent
  rw [body, anchored]
  simp only [shape, List.tail_cons, trimFiller_map_chars areSteps]
  split
  next none => exact absurd none (by simpa using nonempty)
  next => rw [dropped, ofComponents]

/-- The parent of a path written from steps. -/
theorem parent_ofComponents_relative
    {components : List Component}
    (areSteps : ∀ component ∈ components, IsStep component)
    (nonempty : components ≠ []) :
    (ofComponents components).parent =
      some (ofSegments none (components.dropLast.map Component.chars)) := by
  obtain ⟨first, others, whole⟩ := List.exists_cons_of_ne_nil nonempty
  have firstStep : IsStep first := areSteps first (by simp [whole])
  have shape :
      segments (ofComponents components).chars =
        components.map Component.chars := by
    rw [ofComponents_eq_ofSegments areSteps nonempty]
    exact segments_joinSegments (by simpa using nonempty)
      (notMem_of_mem_map_chars areSteps)
  have firstShape :
      segments (ofComponents components).chars =
        first.chars :: others.map Component.chars := by
    rw [shape, whole, List.map_cons]
  have unanchored : (ofComponents components).anchor = none :=
    anchor_eq_none_of_segments firstShape (by simp [firstStep.1])
  have dropped :
      trimFiller (components.map Component.chars).dropLast =
        components.dropLast.map Component.chars := by
    rw [← List.map_dropLast]
    exact trimFiller_map_chars fun name present =>
      areSteps name (List.dropLast_subset _ present)
  unfold parent
  rw [body_eq_of_anchor_eq_none unanchored, shape,
    trimFiller_map_chars areSteps, unanchored]
  split
  next none => exact absurd none (by simpa using nonempty)
  next => rw [dropped]

/-- Above a normal path there are normal paths, and at the end of the parents
of a relative one the empty path. -/
theorem IsNormal.of_parent
    {path above : Path}
    (normal : path.IsNormal)
    (isParent : path.parent = some above) :
    above.chars = [] ∨ above.IsNormal := by
  rw [← normal, normalize] at isParent
  have settled := settled_settle path
  generalize settle path.components = components at isParent settled
  cases settled with
  | absolute names named =>
      by_cases none : names = []
      · subst none
        cases isParent
      · rw [parent_ofComponents_root named none] at isParent
        right
        rw [← Option.some.inj isParent]
        exact (Settled.absolute _ fun name present =>
          named name (List.dropLast_subset _ present)).isNormal
  | relative ups names named =>
      have settled : Settled (List.replicate ups .up ++ names) :=
        Settled.relative ups names named
      have areSteps := isStep_of_mem_relative ups named
      generalize List.replicate ups Component.up ++ names =
        components at isParent settled areSteps
      by_cases none : components = []
      · subst none
        left
        rw [← Option.some.inj isParent]
      · rw [parent_ofComponents_relative areSteps none] at isParent
        rw [← Option.some.inj isParent]
        by_cases single : components.dropLast = []
        · left
          rw [single]
          rfl
        · right
          rw [← ofComponents_eq_ofSegments
            (fun component present =>
              areSteps component (List.dropLast_subset _ present)) single]
          exact settled.dropLast.isNormal

end Path
end CommonJs
