import CommonJs.Path.Basic
import Mathlib.Data.List.Basic
import Mathlib.Data.List.DropRight

/-!
# Components of composed paths

The steps of a path are those of its segments, whatever its anchor is. So the
components of a joined path, of a parent and of a path written from plain
segments are read off those of its parts, and two paths that lead the same
way still do so after the same path has been joined to both.
-/

namespace CommonJs
namespace Path

/-! ## Segments -/

/-- A slash begins a new segment. -/
theorem segments_cons_slash (rest : List Char) :
    segments ('/' :: rest) = [] :: segments rest := by
  simp [segments]

/-- Any other character belongs to the first segment. -/
theorem segments_cons_plain
    {char : Char}
    (plain : char ≠ '/')
    (rest : List Char) :
    ∃ segment others,
      segments rest = segment :: others ∧
        segments (char :: rest) = (char :: segment) :: others := by
  cases shape : segments rest with
  | nil => exact absurd shape (segments_ne_nil rest)
  | cons segment others =>
      exact ⟨segment, others, rfl, by simp [segments, plain, shape]⟩

/-- No segment contains a slash. -/
theorem slash_notMem_of_mem_segments
    {chars segment : List Char}
    (present : segment ∈ segments chars) : '/' ∉ segment := by
  induction chars generalizing segment with
  | nil =>
      rw [segments, List.mem_singleton] at present
      simp [present]
  | cons char rest inductionHypothesis =>
      by_cases slash : char = '/'
      · subst slash
        rw [segments_cons_slash] at present
        rcases List.mem_cons.mp present with empty | later
        · simp [empty]
        · exact inductionHypothesis later
      · obtain ⟨first, others, restShape, shape⟩ :=
          segments_cons_plain slash rest
        rw [shape] at present
        rcases List.mem_cons.mp present with atHead | later
        · subst atHead
          have firstPlain : '/' ∉ first :=
            inductionHypothesis (by rw [restShape]; exact List.mem_cons_self)
          simp [firstPlain, Ne.symm slash]
        · exact inductionHypothesis
            (by rw [restShape]; exact List.mem_cons_of_mem _ later)

/-- A text without slashes is one segment. -/
theorem segments_of_notMem
    {chars : List Char}
    (plain : '/' ∉ chars) : segments chars = [chars] := by
  induction chars with
  | nil => rfl
  | cons char rest inductionHypothesis =>
      rw [List.mem_cons, not_or] at plain
      obtain ⟨segment, others, restShape, shape⟩ :=
        segments_cons_plain (Ne.symm plain.1) rest
      rw [inductionHypothesis plain.2] at restShape
      rw [shape]
      injection restShape with sameSegment sameOthers
      rw [← sameSegment, ← sameOthers]

/-- A slash separates the segments before it from those after it. -/
theorem segments_append_slash (before after : List Char) :
    segments (before ++ '/' :: after) = segments before ++ segments after := by
  induction before with
  | nil => simp [segments]
  | cons char rest inductionHypothesis =>
      by_cases slash : char = '/'
      · subst slash
        simp only [List.cons_append, segments_cons_slash, inductionHypothesis]
      · obtain ⟨segment, others, restShape, shape⟩ :=
          segments_cons_plain slash rest
        obtain ⟨segment', others', longShape, longer⟩ :=
          segments_cons_plain slash (rest ++ '/' :: after)
        rw [inductionHypothesis, restShape, List.cons_append] at longShape
        injection longShape with sameSegment sameOthers
        rw [List.cons_append, longer, shape, ← sameSegment, ← sameOthers,
          List.cons_append]

/-- Segments without slashes are found again in the text that joins them. -/
theorem segments_joinSegments
    {pieces : List (List Char)}
    (nonempty : pieces ≠ [])
    (plain : ∀ piece ∈ pieces, '/' ∉ piece) :
    segments (joinSegments pieces) = pieces := by
  induction pieces with
  | nil => exact absurd rfl nonempty
  | cons piece others inductionHypothesis =>
      have pieceSegments : segments piece = [piece] :=
        segments_of_notMem (plain piece List.mem_cons_self)
      cases others with
      | nil => exact pieceSegments
      | cons next rest =>
          rw [joinSegments, segments_append_slash, pieceSegments,
            inductionHypothesis (List.cons_ne_nil next rest)
              fun later member => plain later (List.mem_cons_of_mem _ member)]
          rfl

/-! ## Steps -/

/-- The steps of all segments of a path. -/
def steps (path : Path) : List Component :=
  (segments path.chars).filterMap stepOf

@[simp] theorem stepOf_nil : stepOf [] = none := by simp [stepOf]

@[simp] theorem stepOf_dot : stepOf ['.'] = none := by simp [stepOf]

@[simp] theorem stepOf_up : stepOf ['.', '.'] = some .up := by simp [stepOf]

/-- The segment that anchors a path is no step. -/
theorem segments_of_anchor
    {path : Path}
    {start : Component}
    (anchored : path.anchor = some start) :
    ∃ filler others, segments path.chars = filler :: others ∧
      stepOf filler = none := by
  unfold anchor at anchored
  split at anchored
  next next others shape => exact ⟨[], next :: others, shape, stepOf_nil⟩
  next others shape => exact ⟨['.'], others, shape, stepOf_dot⟩
  next => cases anchored

/-- The components of a path are its anchor and its steps. -/
theorem components_eq (path : Path) :
    path.components = path.anchor.toList ++ path.steps := by
  unfold components steps body
  cases anchored : path.anchor with
  | none => rfl
  | some start =>
      obtain ⟨filler, others, shape, noStep⟩ := segments_of_anchor anchored
      simp [shape, noStep]

/-- Absolute paths are those that begin at the root. -/
theorem anchor_eq_root_iff (path : Path) :
    path.anchor = some .root ↔ path.isAbsolute = true := by
  rcases path with ⟨chars⟩
  cases chars with
  | nil => simp [anchor, isAbsolute, segments]
  | cons char rest =>
      by_cases slash : char = '/'
      · subst slash
        have some_segment :
            ∃ first others, segments rest = first :: others := by
          cases shape : segments rest with
          | nil => exact absurd shape (segments_ne_nil rest)
          | cons first others => exact ⟨first, others, rfl⟩
        obtain ⟨first, others, shape⟩ := some_segment
        simp [anchor, isAbsolute, segments_cons_slash, shape]
      · obtain ⟨segment, others, _, shape⟩ := segments_cons_plain slash rest
        have noRoot : Path.anchor ⟨char :: rest⟩ ≠ some .root := by
          rw [anchor, shape]
          split <;> simp_all
        simp [noRoot, isAbsolute, slash]

theorem root_notMem_steps (path : Path) : Component.root ∉ path.steps := by
  intro present
  obtain ⟨segment, _, step⟩ := List.mem_filterMap.mp present
  unfold stepOf at step
  split_ifs at step
  all_goals simp at step

/-- A path is absolute exactly when its first component is the root. -/
theorem isAbsolute_iff (path : Path) :
    path.isAbsolute = true ↔ path.components.head? = some .root := by
  rw [← anchor_eq_root_iff, components_eq]
  cases shape : path.anchor with
  | some start => simp
  | none =>
      have noRoot := root_notMem_steps path
      cases stepsShape : path.steps with
      | nil => simp
      | cons step others =>
          rw [stepsShape] at noRoot
          have different : step ≠ .root := fun equal => noRoot (by simp [equal])
          simp [different]

/-! ## Joined paths -/

/-- The anchor is settled by the first segment and by whether more follow. -/
theorem anchor_eq_of_segments
    {first second : Path}
    {head : List Char}
    {firstRest secondRest : List (List Char)}
    (firstShape : segments first.chars = head :: firstRest)
    (secondShape : segments second.chars = head :: secondRest)
    (sameEnd : head = [] → (firstRest = [] ↔ secondRest = [])) :
    first.anchor = second.anchor := by
  unfold anchor
  rw [firstShape, secondShape]
  by_cases empty : head = []
  · subst empty
    have bothEnd := sameEnd rfl
    cases firstRest <;> cases secondRest <;> simp_all
  · by_cases dot : head = ['.']
    · simp [dot]
    · simp [empty, dot]

/-- An absolute path stays as it is. -/
theorem join_of_isAbsolute
    {second : Path}
    (absolute : second.isAbsolute = true)
    (first : Path) : first.join second = second := by
  simp [join, absolute]

theorem join_of_chars_eq_nil
    {first : Path}
    (empty : first.chars = [])
    (second : Path) : first.join second = second := by
  simp [join, empty]

/-- The segments of a path that is joined to another one follow its own; one
empty segment after the last slash of the first path is dropped. -/
theorem segments_join
    {first second : Path}
    (nonempty : first.chars ≠ [])
    (relative : second.isAbsolute = false) :
    ∃ own dropped,
      segments first.chars = own ++ dropped ∧
        dropped.filterMap stepOf = [] ∧
        own ≠ [] ∧
        (own = [[]] → dropped ≠ []) ∧
        segments (first.join second).chars = own ++ segments second.chars := by
  by_cases slashed : first.chars.getLast? = some '/'
  · obtain ⟨before, shape⟩ := List.getLast?_eq_some_iff.mp slashed
    refine ⟨segments before, [[]], ?_,
      by simp, segments_ne_nil before, by simp, ?_⟩
    · rw [shape, segments_append_slash]
      rfl
    · have joined : first.join second = ⟨first.chars ++ second.chars⟩ := by
        simp [join, relative, slashed]
      rw [joined, shape]
      simp only [List.append_assoc, List.singleton_append]
      exact segments_append_slash before second.chars
  · refine ⟨segments first.chars, [], by simp, rfl, segments_ne_nil _, ?_, ?_⟩
    · intro single
      have joinedBack := joinSegments_segments first.chars
      rw [single] at joinedBack
      exact absurd joinedBack.symm nonempty
    · have joined : first.join second =
          ⟨first.chars ++ '/' :: second.chars⟩ := by
        simp [join, relative, slashed, nonempty]
      rw [joined]
      exact segments_append_slash first.chars second.chars

/-- A relative path adds its steps to those of the path that it is joined
to. -/
theorem components_join
    {first second : Path}
    (nonempty : first.chars ≠ [])
    (relative : second.isAbsolute = false) :
    (first.join second).components = first.components ++ second.steps := by
  obtain ⟨own, dropped, shape, noSteps, ownNonempty, goesOn, joined⟩ :=
    segments_join nonempty relative
  have sameSteps : (first.join second).steps = first.steps ++ second.steps := by
    unfold steps
    rw [joined, shape, List.filterMap_append, List.filterMap_append, noSteps,
      List.append_nil]
  have sameAnchor : (first.join second).anchor = first.anchor := by
    obtain ⟨head, rest, ownShape⟩ := List.exists_cons_of_ne_nil ownNonempty
    rw [ownShape, List.cons_append] at joined shape
    apply anchor_eq_of_segments joined shape
    intro empty
    have longer : rest ++ segments second.chars ≠ [] := by
      simp [segments_ne_nil]
    have long : rest ++ dropped ≠ [] := by
      intro none
      obtain ⟨restNil, droppedNil⟩ := List.append_eq_nil_iff.mp none
      exact goesOn (by rw [ownShape, empty, restNil]) droppedNil
    simp [longer, long]
  rw [components_eq, components_eq, sameSteps, sameAnchor, List.append_assoc]

/-- Only the empty text has no components. -/
theorem components_eq_nil_iff (path : Path) :
    path.components = [] ↔ path.chars = [] := by
  constructor
  · intro none
    rw [components_eq, List.append_eq_nil_iff] at none
    obtain ⟨noAnchor, noSteps⟩ := none
    obtain ⟨head, rest, shape⟩ :=
      List.exists_cons_of_ne_nil (segments_ne_nil path.chars)
    have headFiller : stepOf head = none :=
      List.filterMap_eq_nil_iff.mp noSteps head
        (by rw [shape]; exact List.mem_cons_self)
    have unanchored : path.anchor = none := by
      cases anchored : path.anchor with
      | none => rfl
      | some start => simp [anchored] at noAnchor
    unfold stepOf at headFiller
    split_ifs at headFiller with filler
    unfold anchor at unanchored
    rw [shape] at unanchored
    have single : segments path.chars = [[]] := by
      rcases filler with empty | dot
      · subst empty
        cases rest with
        | nil => exact shape
        | cons next others => simp at unanchored
      · simp [dot] at unanchored
    rw [← joinSegments_segments path.chars, single, joinSegments]
  · intro empty
    simp [components_eq, steps, anchor, empty, segments]

/-- Paths that lead the same way still do after one path is joined to both. -/
theorem SameWay.join
    {first second : Path}
    (same : first.SameWay second)
    (last : Path) : (first.join last).SameWay (second.join last) := by
  unfold SameWay at same ⊢
  by_cases absolute : last.isAbsolute = true
  · rw [join_of_isAbsolute absolute, join_of_isAbsolute absolute]
  · have relative : last.isAbsolute = false := by simpa using absolute
    by_cases empty : first.chars = []
    · have otherEmpty : second.chars = [] := by
        rw [← components_eq_nil_iff, ← same, components_eq_nil_iff]
        exact empty
      rw [join_of_chars_eq_nil empty, join_of_chars_eq_nil otherEmpty]
    · have otherNonempty : second.chars ≠ [] := by
        rw [Ne, ← components_eq_nil_iff, ← same, components_eq_nil_iff]
        exact empty
      rw [components_join empty relative,
        components_join otherNonempty relative, same]

/-- What is joined to an absolute path is absolute. -/
theorem isAbsolute_join
    {first : Path}
    (absolute : first.isAbsolute = true)
    (second : Path) : (first.join second).isAbsolute = true := by
  by_cases secondAbsolute : second.isAbsolute = true
  · rw [join_of_isAbsolute secondAbsolute]
    exact secondAbsolute
  · have relative : second.isAbsolute = false := by simpa using secondAbsolute
    have nonempty : first.chars ≠ [] := by
      intro empty
      simp [isAbsolute, empty] at absolute
    rw [isAbsolute_iff] at absolute ⊢
    rw [components_join nonempty relative, List.head?_append, absolute]
    rfl

theorem isAbsolute_append
    {path : Path}
    (absolute : path.isAbsolute = true)
    (suffix : String) : (path.append suffix).isAbsolute = true := by
  rcases path with ⟨chars⟩
  cases chars with
  | nil => simp [isAbsolute] at absolute
  | cons char rest => simpa [isAbsolute, append] using absolute

/-! ## Parents -/

/-- Absolute segments are read as they are written. -/
theorem components_ofSegments_root
    {pieces : List (List Char)}
    (plain : ∀ piece ∈ pieces, '/' ∉ piece) :
    (ofSegments (some .root) pieces).components =
      .root :: pieces.filterMap stepOf := by
  have absolute : (ofSegments (some .root) pieces).isAbsolute = true := by
    simp [ofSegments, isAbsolute]
  rw [components_eq, (anchor_eq_root_iff _).mpr absolute]
  have sameSteps : (ofSegments (some .root) pieces).steps =
      pieces.filterMap stepOf := by
    unfold steps ofSegments
    rw [segments_cons_slash]
    by_cases none : pieces = []
    · simp [none, joinSegments, segments]
    · rw [segments_joinSegments none plain]
      simp
  rw [sameSteps]
  rfl

theorem components_ofSegments_here
    {pieces : List (List Char)}
    (plain : ∀ piece ∈ pieces, '/' ∉ piece) :
    (ofSegments (some .here) pieces).components =
      .here :: pieces.filterMap stepOf := by
  have shape : segments (ofSegments (some .here) pieces).chars =
      ['.'] :: pieces := by
    apply segments_joinSegments (List.cons_ne_nil _ _)
    intro piece present
    rcases List.mem_cons.mp present with dot | later
    · simp [dot, Component.chars]
    · exact plain piece later
  rw [components_eq]
  simp [anchor, steps, shape]

/-- Without an anchor the first segment has to be a step, for it is taken for
an anchor otherwise. -/
theorem anchor_eq_none_of_segments
    {path : Path}
    {piece : List Char}
    {others : List (List Char)}
    (shape : segments path.chars = piece :: others)
    (stepped : stepOf piece ≠ none) : path.anchor = none := by
  have notEmpty : piece ≠ [] := by
    intro equal
    simp [equal] at stepped
  have notDot : piece ≠ ['.'] := by
    intro equal
    simp [equal] at stepped
  simp [anchor, shape, notEmpty, notDot]

/-- So are segments that begin with a step. -/
theorem components_ofSegments_none
    {pieces : List (List Char)}
    (plain : ∀ piece ∈ pieces, '/' ∉ piece)
    (begins : ∀ piece ∈ pieces.head?, stepOf piece ≠ none) :
    (ofSegments none pieces).components = pieces.filterMap stepOf := by
  cases pieces with
  | nil => simp [ofSegments, joinSegments, components_eq_nil_iff]
  | cons piece others =>
      have shape : segments (ofSegments none (piece :: others)).chars =
          piece :: others :=
        segments_joinSegments (List.cons_ne_nil _ _) plain
      rw [components_eq, anchor_eq_none_of_segments shape (begins piece rfl)]
      simp [steps, shape]

/-- Segments that are no steps are dropped from the end. -/
theorem trimFiller_eq_rdropWhile (pieces : List (List Char)) :
    trimFiller pieces = pieces.rdropWhile isFiller := rfl

/-- What is left is the beginning. -/
theorem isPrefix_trimFiller (pieces : List (List Char)) :
    trimFiller pieces <+: pieces := by
  rw [trimFiller_eq_rdropWhile]
  exact List.rdropWhile_prefix isFiller pieces

@[simp] theorem trimFiller_append_filler
    {filler : List Char}
    (noStep : stepOf filler = none)
    (pieces : List (List Char)) :
    trimFiller (pieces ++ [filler]) = trimFiller pieces := by
  rw [trimFiller_eq_rdropWhile,
    List.rdropWhile_concat_pos _ _ _ (by simp [isFiller, noStep])]
  rfl

@[simp] theorem trimFiller_append_step
    {piece : List Char}
    {step : Component}
    (stepped : stepOf piece = some step)
    (pieces : List (List Char)) :
    trimFiller (pieces ++ [piece]) = pieces ++ [piece] := by
  rw [trimFiller_eq_rdropWhile]
  exact List.rdropWhile_concat_neg _ _ _ (by simp [isFiller, stepped])

/-- Trimming takes no step away. -/
theorem filterMap_trimFiller (pieces : List (List Char)) :
    (trimFiller pieces).filterMap stepOf = pieces.filterMap stepOf := by
  induction pieces using List.reverseRecOn with
  | nil => rfl
  | append_singleton pieces piece inductionHypothesis =>
      cases stepped : stepOf piece with
      | none =>
          simp [trimFiller_append_filler stepped, inductionHypothesis, stepped]
      | some step => rw [trimFiller_append_step stepped]

/-- What is left after trimming ends with a step. -/
theorem trimFiller_eq_nil_or_concat (pieces : List (List Char)) :
    trimFiller pieces = [] ∨
      ∃ before piece step,
        trimFiller pieces = before ++ [piece] ∧ stepOf piece = some step := by
  induction pieces using List.reverseRecOn with
  | nil => exact Or.inl rfl
  | append_singleton pieces piece inductionHypothesis =>
      cases stepped : stepOf piece with
      | none => rwa [trimFiller_append_filler stepped]
      | some step =>
          exact Or.inr ⟨pieces, piece, step,
            trimFiller_append_step stepped pieces, stepped⟩

/-- A path without an anchor is its segments. -/
theorem body_eq_of_anchor_eq_none
    {path : Path}
    (unanchored : path.anchor = none) : path.body = segments path.chars := by
  simp [body, unanchored]

theorem mem_segments_of_mem_body
    {path : Path}
    {piece : List Char}
    (present : piece ∈ path.body) : piece ∈ segments path.chars := by
  unfold body at present
  split at present
  · exact List.mem_of_mem_tail present
  · exact present

/-- A path begins at the root, where it is, or with a step. -/
theorem anchor_cases (path : Path) :
    path.anchor = none ∨ path.anchor = some .root ∨
      path.anchor = some .here := by
  unfold anchor
  split <;> simp

/-- A path without an anchor begins with a step, unless it is empty. -/
theorem stepOf_head_ne_none
    {path : Path}
    {piece : List Char}
    {others : List (List Char)}
    (unanchored : path.anchor = none)
    (shape : segments path.chars = piece :: others)
    (more : piece = [] → others ≠ []) : stepOf piece ≠ none := by
  intro noStep
  unfold stepOf at noStep
  split_ifs at noStep with filler
  unfold anchor at unanchored
  rw [shape] at unanchored
  rcases filler with empty | dot
  · subst empty
    cases others with
    | nil => exact more rfl rfl
    | cons next rest => simp at unanchored
  · simp [dot] at unanchored

/-- The first segments of a path up to one of its steps, written after its
anchor, keep the anchor and their steps. -/
theorem components_ofSegments_trimFiller
    {path : Path}
    {pieces : List (List Char)}
    (begins : trimFiller pieces <+: path.body) :
    (ofSegments path.anchor (trimFiller pieces)).components =
      path.anchor.toList ++ pieces.filterMap stepOf := by
  have plain : ∀ piece ∈ trimFiller pieces, '/' ∉ piece := fun piece present =>
    slash_notMem_of_mem_segments
      (mem_segments_of_mem_body (begins.subset present))
  rw [← filterMap_trimFiller]
  rcases anchor_cases path with anchored | anchored | anchored
  · rw [anchored]
    refine components_ofSegments_none plain ?_
    rcases trimFiller_eq_nil_or_concat pieces with trimmed |
      ⟨before, last, step, trimmed, stepped⟩
    · simp [trimmed]
    · rw [trimmed] at begins ⊢
      rw [body_eq_of_anchor_eq_none anchored] at begins
      obtain ⟨others, shape⟩ := begins
      cases before with
      | nil => simp [stepped]
      | cons head rest =>
          have shape' : segments path.chars =
              head :: (rest ++ [last] ++ others) := by
            rw [← shape]
            simp
          simpa using stepOf_head_ne_none anchored shape' (by simp)
  · rw [anchored]
    exact components_ofSegments_root plain
  · rw [anchored]
    exact components_ofSegments_here plain

/-- The parent of a path has its components but the last one. -/
theorem components_of_parent
    {path above : Path}
    (isParent : path.parent = some above) :
    above.components = path.components.dropLast := by
  have ownComponents : path.components =
      path.anchor.toList ++ path.body.filterMap stepOf := rfl
  rw [← filterMap_trimFiller path.body] at ownComponents
  unfold parent at isParent
  rcases trimFiller_eq_nil_or_concat path.body with trimmed |
    ⟨before, last, step, trimmed, stepped⟩
  · rw [trimmed] at isParent ownComponents
    rcases anchor_cases path with anchored | anchored | anchored
    · simp [anchored] at isParent
    · simp [anchored] at isParent
    · simp only [anchored, Option.some.injEq] at isParent
      rw [ownComponents, anchored, ← isParent]
      rfl
  · have isAbove : ofSegments path.anchor (trimFiller before) = above := by
      simpa [trimmed] using isParent
    have begins : trimFiller before <+: path.body :=
      ((isPrefix_trimFiller before).trans ⟨[last], trimmed.symm⟩).trans
        (isPrefix_trimFiller path.body)
    rw [← isAbove, components_ofSegments_trimFiller begins, ownComponents,
      trimmed, List.filterMap_append, ← List.append_assoc]
    simp [stepped]

/-- Only the empty path and the root have no parent. -/
theorem parent_eq_none_iff (path : Path) :
    path.parent = none ↔ path.components = [] ∨ path.components = [.root] := by
  have ownComponents : path.components =
      path.anchor.toList ++ path.body.filterMap stepOf := rfl
  rw [← filterMap_trimFiller path.body] at ownComponents
  rw [ownComponents]
  unfold parent
  rcases trimFiller_eq_nil_or_concat path.body with trimmed |
    ⟨before, last, step, trimmed, stepped⟩
  · rcases anchor_cases path with anchored | anchored | anchored
    all_goals simp [trimmed, anchored]
  · have noRoot : step ≠ .root := by
      intro equal
      unfold stepOf at stepped
      split_ifs at stepped <;> simp_all
    rcases anchor_cases path with anchored | anchored | anchored
    all_goals
      simp [trimmed, anchored, stepped, noRoot, List.append_eq_singleton_iff]

/-- The parents of paths that lead the same way lead the same way. -/
theorem SameWay.parent
    {first second : Path}
    (same : first.SameWay second) :
    Option.Rel SameWay first.parent second.parent := by
  have bothTopmost : first.parent = none ↔ second.parent = none := by
    rw [parent_eq_none_iff, parent_eq_none_iff,
      show first.components = second.components from same]
  cases firstParent : first.parent with
  | none =>
      rw [bothTopmost.mp firstParent]
      exact .none
  | some above =>
      cases secondParent : second.parent with
      | none => simp [bothTopmost.mpr secondParent] at firstParent
      | some otherAbove =>
          refine .some ?_
          unfold SameWay at same ⊢
          rw [components_of_parent firstParent,
            components_of_parent secondParent, same]

/-- Two paths with equally many steps, whose parents are related wherever the
paths are, have ancestors that are related one by one. -/
theorem forall₂_ancestors
    {related : Path → Path → Prop}
    (lengths : ∀ path other, related path other →
      path.components.length = other.components.length)
    (parents : ∀ path other, related path other →
      Option.Rel related path.parent other.parent)
    {path other : Path}
    (both : related path other) :
    List.Forall₂ related path.ancestors other.ancestors := by
  unfold ancestors
  rw [lengths path other both]
  generalize other.components.length = steps
  induction steps generalizing path other with
  | zero => exact .cons both .nil
  | succ steps inductionHypothesis =>
      have above := parents path other both
      refine .cons both ?_
      generalize path.parent = parent at above
      generalize other.parent = otherParent at above
      cases above with
      | none => exact .nil
      | some bothAbove => exact inductionHypothesis bothAbove

/-- The ancestors of paths that lead the same way correspond one by one. -/
theorem SameWay.ancestors
    {first second : Path}
    (same : first.SameWay second) :
    List.Forall₂ SameWay first.ancestors second.ancestors :=
  forall₂_ancestors (fun _ _ same => congrArg List.length same)
    (fun _ _ => SameWay.parent) same

/-- What holds of a path and of the parents of all that it holds of holds of
all the ancestors of the path. -/
theorem forall_ancestors
    (property : Path → Prop)
    (climbs : ∀ path above, property path → path.parent = some above →
      property above)
    {path : Path}
    (holds : property path) :
    ∀ ancestor ∈ path.ancestors, property ancestor := by
  unfold ancestors
  generalize path.components.length = steps
  induction steps generalizing path with
  | zero => simpa [ancestorsWithin] using holds
  | succ steps inductionHypothesis =>
      intro ancestor present
      rw [ancestorsWithin] at present
      rcases List.mem_cons.mp present with self | higher
      · rw [self]
        exact holds
      · cases isParent : path.parent with
        | none => simp [isParent] at higher
        | some above =>
            rw [isParent] at higher
            exact inductionHypothesis (climbs path above holds isParent)
              ancestor higher

/-- All ancestors of an absolute path are absolute. -/
theorem isAbsolute_of_mem_ancestors
    {path : Path}
    (absolute : path.isAbsolute = true) :
    ∀ ancestor ∈ path.ancestors, ancestor.isAbsolute = true := by
  refine forall_ancestors (fun path => path.isAbsolute = true) ?_ absolute
  intro path above absolute isParent
  have notTopmost : path.components ≠ [.root] := by
    intro top
    rw [(parent_eq_none_iff path).mpr (Or.inr top)] at isParent
    cases isParent
  rw [isAbsolute_iff] at absolute ⊢
  rw [components_of_parent isParent]
  cases shape : path.components with
  | nil => simp [shape] at absolute
  | cons first others =>
      cases others with
      | nil => simp_all
      | cons next rest => simpa [shape] using absolute

end Path
end CommonJs
