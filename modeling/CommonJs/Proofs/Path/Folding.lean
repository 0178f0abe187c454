import CommonJs.Path.Normal
import CommonJs.Proofs.Path.Components

/-!
# Components in lower case

To write a path in lower case changes its names and nothing else: slashes and
dots stay where they are, so the segments of the path are the same pieces and
mean the same steps. Hence what a path looks like in lower case depends on
its components only, and it does not matter whether a path is normalized or
joined to another one before or after it is written in lower case.
-/

namespace CommonJs

/-- A step with ASCII letters in lower case. -/
def Component.foldCase : Component → Component
  | name chars => name (chars.map Char.toLower)
  | other => other

namespace Path

/-- No letter becomes a character that comes before all letters. -/
theorem toLower_eq_iff
    {sign : Char}
    (early : sign.val < 65)
    (char : Char) : char.toLower = sign ↔ char = sign := by
  unfold Char.toLower
  split
  next upper =>
    have low : 65 ≤ char.val := upper.1
    have high : char.val ≤ 90 := upper.2
    constructor
    · intro equal
      have value : char.val + 32 = sign.val := congrArg Char.val equal
      grind
    · rintro rfl
      grind
  next => rfl

/-- A text in lower case is one without letters only if it was. -/
theorem map_toLower_eq_iff
    {signs : List Char}
    (early : ∀ sign ∈ signs, sign.val < 65)
    (chars : List Char) : chars.map Char.toLower = signs ↔ chars = signs := by
  induction signs generalizing chars with
  | nil => simp
  | cons sign others inductionHypothesis =>
      have rest := inductionHypothesis fun other present =>
        early other (List.mem_cons_of_mem _ present)
      cases chars with
      | nil => simp
      | cons char chars =>
          simp [toLower_eq_iff (early sign List.mem_cons_self), rest]

/-- No letter becomes a slash in lower case. -/
theorem segments_map_toLower (chars : List Char) :
    segments (chars.map Char.toLower) =
      (segments chars).map (List.map Char.toLower) := by
  induction chars with
  | nil => rfl
  | cons char rest inductionHypothesis =>
      rw [List.map_cons, segments, segments, inductionHypothesis]
      simp only [toLower_eq_iff (show '/'.val < 65 by decide)]
      split
      · rfl
      · cases segments rest with
        | nil => rfl
        | cons segment others => rfl

/-- No name becomes a dot in lower case. -/
theorem stepOf_map_toLower (segment : List Char) :
    stepOf (segment.map Char.toLower) =
      (stepOf segment).map Component.foldCase := by
  have dot : segment.map Char.toLower = ['.'] ↔ segment = ['.'] :=
    map_toLower_eq_iff (List.forall_mem_singleton.mpr (by decide)) segment
  have dots : segment.map Char.toLower = ['.', '.'] ↔ segment = ['.', '.'] :=
    map_toLower_eq_iff (List.forall_mem_cons.mpr
      ⟨by decide, List.forall_mem_singleton.mpr (by decide)⟩) segment
  unfold stepOf
  simp only [List.map_eq_nil_iff, dot, dots]
  split_ifs
  all_goals rfl

@[simp] theorem anchor_foldCase
    (path : Path) : path.foldCase.anchor = path.anchor := by
  have dot (segment : List Char) : segment.map Char.toLower = ['.'] ↔
      segment = ['.'] :=
    map_toLower_eq_iff (List.forall_mem_singleton.mpr (by decide)) segment
  unfold anchor foldCase
  rw [segments_map_toLower]
  rcases segments path.chars with - | ⟨first, others⟩
  · rfl
  · by_cases empty : first = []
    · subst empty
      cases others <;> rfl
    · by_cases here : first = ['.']
      · subst here
        rfl
      · have plain : first.map Char.toLower ≠ ['.'] := (dot first).not.mpr here
        simp [empty, here, plain]

/-- The steps of a path in lower case are its own steps in lower case. -/
theorem components_foldCase (path : Path) :
    path.foldCase.components = path.components.map Component.foldCase := by
  have sameAnchor :
      path.anchor.toList.map Component.foldCase = path.anchor.toList := by
    rcases anchor_cases path with anchored | anchored | anchored
    all_goals rw [anchored]; rfl
  have foldedSteps : path.foldCase.steps =
      path.steps.map Component.foldCase := by
    unfold steps foldCase
    rw [segments_map_toLower, List.filterMap_map, List.map_filterMap]
    exact List.filterMap_congr fun segment _ => stepOf_map_toLower segment
  rw [components_eq, components_eq, anchor_foldCase, foldedSteps,
    List.map_append, sameAnchor]

/-- Paths that lead the same way still do in lower case. -/
theorem SameWay.foldCase
    {first second : Path}
    (same : first.SameWay second) : first.foldCase.SameWay second.foldCase := by
  unfold SameWay at same ⊢
  rw [components_foldCase, components_foldCase, same]

@[simp] theorem isAbsolute_foldCase (path : Path) :
    path.foldCase.isAbsolute = path.isAbsolute := by
  rw [Bool.eq_iff_iff, ← anchor_eq_root_iff, anchor_foldCase,
    anchor_eq_root_iff]

/-! ## Composed paths in lower case -/

/-- Paths may be joined before they are folded or after. -/
theorem foldCase_join (first second : Path) :
    (first.join second).foldCase = first.foldCase.join second.foldCase := by
  have slash : ∀ chars : List Char,
      (chars.map Char.toLower).getLast? = some '/' ↔
        chars.getLast? = some '/' := by
    intro chars
    rw [List.getLast?_map]
    simp [toLower_eq_iff (show '/'.val < 65 by decide)]
  unfold join
  rw [isAbsolute_foldCase]
  by_cases absolute : second.isAbsolute = true
  · rw [if_pos absolute, if_pos absolute]
  · rw [if_neg absolute, if_neg absolute]
    simp only [foldCase, List.map_eq_nil_iff, slash]
    split_ifs
    · simp
    · simp [show '/'.toLower = '/' from rfl]

theorem foldCase_append (path : Path) (suffix : String) :
    (path.append suffix).foldCase =
      ⟨path.foldCase.chars ++ suffix.toList.map Char.toLower⟩ := by
  simp [append, foldCase]

/-- Segments may be joined before they are folded or after. -/
theorem map_toLower_joinSegments (segments : List (List Char)) :
    (joinSegments segments).map Char.toLower =
      joinSegments (segments.map (List.map Char.toLower)) := by
  induction segments with
  | nil => rfl
  | cons segment others inductionHypothesis =>
      cases others with
      | nil => rfl
      | cons next rest =>
          rw [joinSegments, List.map_append, List.map_cons, inductionHypothesis]
          rfl

theorem map_toLower_chars (component : Component) :
    component.chars.map Char.toLower = component.foldCase.chars := by
  cases component <;> rfl

/-- Components may be written before they are folded or after. -/
theorem foldCase_ofComponents (components : List Component) :
    (ofComponents components).foldCase =
      ofComponents (components.map Component.foldCase) := by
  have folded (components : List Component) :
      (joinSegments (components.map Component.chars)).map Char.toLower =
        joinSegments
          ((components.map Component.foldCase).map Component.chars) := by
    rw [map_toLower_joinSegments, List.map_map, List.map_map]
    exact congrArg joinSegments
      (List.map_congr_left fun component _ => map_toLower_chars component)
  cases components with
  | nil => rfl
  | cons first others =>
      cases first with
      | root =>
          exact congrArg (fun chars => Path.mk ('/' :: chars)) (folded others)
      | _ => exact congrArg Path.mk (folded (_ :: others))

/-- Steps back do not depend on the case of names. -/
theorem settle_map_foldCase (components : List Component) :
    settle (components.map Component.foldCase) =
      (settle components).map Component.foldCase := by
  have advanced (stack : List Component) (component : Component) :
      advance (stack.map Component.foldCase) component.foldCase =
        (advance stack component).map Component.foldCase := by
    cases component with
    | up =>
        cases stack with
        | nil => rfl
        | cons top rest => cases top <;> rfl
    | _ => rfl
  have carriedOut (stack : List Component) :
      (components.map Component.foldCase).foldl advance
          (stack.map Component.foldCase) =
        (components.foldl advance stack).map Component.foldCase := by
    induction components generalizing stack with
    | nil => rfl
    | cons component others inductionHypothesis =>
        rw [List.map_cons, List.foldl_cons, List.foldl_cons, advanced,
          inductionHypothesis]
  unfold settle
  rw [List.map_reverse, ← carriedOut]
  rfl

/-- A path can be normalized before or after it is written in lower case. -/
theorem foldCase_normalize
    (path : Path) : path.normalize.foldCase = path.foldCase.normalize := by
  rw [normalize, normalize, foldCase_ofComponents, components_foldCase,
    settle_map_foldCase]

end Path
end CommonJs
