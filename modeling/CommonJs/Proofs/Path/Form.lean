import CommonJs.Proofs.Path.Folding
import CommonJs.Proofs.Path.Normal

/-!
# What normalized paths look like

A normalized path is plain: an absolute one is a slash and then names with one
slash between them, and a relative one is a dot, or some `..` and then names.
A plain path is its own normal form, to the letter. So one normal form stands
for all the paths that lead the same way, and it is found whether a path is
normalized before or after it is joined to others or written in lower case.
-/

namespace CommonJs
namespace Path

/-! ## Plain paths -/

/-- A segment that names something. -/
structure IsName (segment : List Char) : Prop where
  /-- It is not empty. -/
  ne_nil : segment ≠ []
  /-- It does not name the directory itself. -/
  ne_dot : segment ≠ ['.']
  /-- It does not name the directory above. -/
  ne_up : segment ≠ ['.', '.']
  /-- It is a single segment. -/
  plain : '/' ∉ segment

/-- A slash, and then names with one slash between them. -/
def IsPlainAbsolute (path : Path) : Prop :=
  ∃ names : List (List Char),
    (∀ name ∈ names, IsName name) ∧ path.chars = '/' :: joinSegments names

/-- A dot, or some `..` and then names, at least one of them, with one slash
between them. -/
def IsPlainRelative (path : Path) : Prop :=
  path.chars = ['.'] ∨
    ∃ (ups : Nat) (names : List (List Char)),
      (∀ name ∈ names, IsName name) ∧
        List.replicate ups ['.', '.'] ++ names ≠ [] ∧
          path.chars = joinSegments (List.replicate ups ['.', '.'] ++ names)

/-- A name is a segment that is a step down. -/
theorem isName_iff
    (segment : List Char) : IsName segment ↔ IsNameStep (.name segment) := by
  constructor
  · rintro ⟨ne_nil, ne_dot, ne_up, plain⟩
    exact ⟨⟨by simp [Component.chars, stepOf, ne_nil, ne_dot, ne_up], plain⟩,
      rfl⟩
  · rintro ⟨⟨isStep, plain⟩, _⟩
    refine ⟨?_, ?_, ?_, plain⟩
    all_goals
      rintro rfl
      cases isStep

/-- Names are the segments of steps that are names. -/
theorem forall_isName_iff (segments : List (List Char)) :
    (∀ segment ∈ segments, IsName segment) ↔
      ∃ names : List Component,
        (∀ name ∈ names, IsNameStep name) ∧
          names.map Component.chars = segments := by
  constructor
  · intro named
    refine ⟨segments.map .name,
      List.forall_mem_map.mpr fun segment present => ?_, ?_⟩
    · exact (isName_iff segment).mp (named segment present)
    · simp [Function.comp_def, Component.chars]
  · rintro ⟨names, named, rfl⟩
    refine List.forall_mem_map.mpr fun name present => ?_
    cases name with
    | name chars => exact (isName_iff chars).mpr (named _ present)
    | _ => cases (named _ present).2

/-- A plain absolute path is the root and names. -/
theorem isPlainAbsolute_iff (path : Path) :
    path.IsPlainAbsolute ↔
      ∃ names, (∀ name ∈ names, IsNameStep name) ∧
        path = ofComponents (.root :: names) := by
  unfold IsPlainAbsolute
  constructor
  · rintro ⟨segments, areNames, written⟩
    obtain ⟨names, named, rfl⟩ := (forall_isName_iff segments).mp areNames
    exact ⟨names, named, congrArg Path.mk written⟩
  · rintro ⟨names, named, rfl⟩
    exact ⟨_, (forall_isName_iff _).mpr ⟨names, named, rfl⟩, rfl⟩

/-- Steps that do not start at the root are written one after the other. -/
theorem chars_ofComponents_relative
    {ups : Nat}
    {names : List Component}
    (named : ∀ name ∈ names, IsNameStep name)
    (nonempty : List.replicate ups .up ++ names ≠ []) :
    (ofComponents (List.replicate ups .up ++ names)).chars =
      joinSegments
        (List.replicate ups ['.', '.'] ++ names.map Component.chars) := by
  rw [ofComponents_eq_ofSegments (isStep_of_mem_relative ups named) nonempty,
    List.map_append, List.map_replicate]
  rfl

/-- A plain relative path goes up first and then down. -/
theorem isPlainRelative_iff (path : Path) :
    path.IsPlainRelative ↔
      ∃ (ups : Nat) (names : List Component),
        (∀ name ∈ names, IsNameStep name) ∧
          path = ofComponents (List.replicate ups .up ++ names) := by
  unfold IsPlainRelative
  constructor
  · rintro (isDot | ⟨ups, segments, areNames, nonempty, written⟩)
    · exact ⟨0, [], nofun, congrArg Path.mk isDot⟩
    · obtain ⟨names, named, rfl⟩ := (forall_isName_iff segments).mp areNames
      have someStep : List.replicate ups Component.up ++ names ≠ [] := by
        simpa using nonempty
      exact ⟨ups, names, named,
        congrArg Path.mk
          (written.trans (chars_ofComponents_relative named someStep).symm)⟩
  · rintro ⟨ups, names, named, rfl⟩
    by_cases none : List.replicate ups Component.up ++ names = []
    · exact .inl (by rw [none]; rfl)
    · exact .inr ⟨ups, _, (forall_isName_iff _).mpr ⟨names, named, rfl⟩, by
        simpa using none, chars_ofComponents_relative named none⟩

/-- Nothing in a plain absolute path can be left out. -/
theorem IsPlainAbsolute.isNormal
    {path : Path}
    (isPlain : path.IsPlainAbsolute) : path.IsNormal := by
  obtain ⟨names, named, rfl⟩ := (isPlainAbsolute_iff path).mp isPlain
  exact (Settled.absolute names named).isNormal

/-- Nor can anything in a plain relative path. -/
theorem IsPlainRelative.isNormal
    {path : Path}
    (isPlain : path.IsPlainRelative) : path.IsNormal := by
  obtain ⟨ups, names, named, rfl⟩ := (isPlainRelative_iff path).mp isPlain
  exact (Settled.relative ups names named).isNormal

theorem IsPlainAbsolute.isAbsolute
    {path : Path}
    (isPlain : path.IsPlainAbsolute) : path.isAbsolute = true := by
  obtain ⟨names, _, rfl⟩ := (isPlainAbsolute_iff path).mp isPlain
  rfl

theorem IsPlainRelative.isAbsolute_eq_false
    {path : Path}
    (isPlain : path.IsPlainRelative) : path.isAbsolute = false := by
  obtain ⟨ups, names, named, rfl⟩ := (isPlainRelative_iff path).mp isPlain
  rw [← Bool.not_eq_true, isAbsolute_iff,
    components_ofComponents (.relative ups names named)]
  have areSteps := isStep_of_mem_relative ups named
  split
  · simp
  · intro rooted
    have isStep := areSteps .root (List.mem_of_mem_head? rooted)
    simp [IsStep, Component.chars] at isStep

/-- What normalization leaves is plain. -/
theorem isPlain_normalize (path : Path) :
    path.normalize.IsPlainAbsolute ∨ path.normalize.IsPlainRelative := by
  rw [normalize, isPlainAbsolute_iff, isPlainRelative_iff]
  have settled := settled_settle path
  generalize settle path.components = components at settled ⊢
  cases settled with
  | absolute names named => exact .inl ⟨names, named, rfl⟩
  | relative ups names named => exact .inr ⟨ups, names, named, rfl⟩

/-- The normal form of an absolute path is a slash and names with one slash
between them, and that of a relative path is a dot, or some `..` and then names.
Whether a path starts at the root is kept. A path that looks like this already
is left as it is, so to normalize twice changes nothing more, and normal forms
lead the same way exactly when they are written alike. -/
theorem normalize_plain :
    (∀ path : Path, path.isAbsolute = true → path.normalize.IsPlainAbsolute) ∧
    (∀ path : Path, path.isAbsolute = false → path.normalize.IsPlainRelative) ∧
    (∀ path : Path, path.normalize.isAbsolute = path.isAbsolute) ∧
    (∀ path : Path, path.IsPlainAbsolute ∨ path.IsPlainRelative →
      path.normalize = path) ∧
    (∀ path : Path, path.normalize.normalize = path.normalize) ∧
    ∀ first second : Path,
      first.normalize.SameWay second.normalize ↔
        first.normalize.chars = second.normalize.chars := by
  refine ⟨fun path absolute => ?_, fun path relative => ?_,
    isAbsolute_normalize, ?_,
    normalize_normalize, fun first second => ?_⟩
  · refine (isPlain_normalize path).resolve_right fun isPlain => ?_
    rw [← isAbsolute_normalize, isPlain.isAbsolute_eq_false] at absolute
    cases absolute
  · refine (isPlain_normalize path).resolve_left fun isPlain => ?_
    rw [← isAbsolute_normalize, isPlain.isAbsolute] at relative
    cases relative
  · rintro path (isPlain | isPlain)
    · exact isPlain.isNormal
    · exact isPlain.isNormal
  · constructor
    · intro same
      rw [(isNormal_normalize first).eq_of_sameWay
        (isNormal_normalize second) same]
    · intro alike
      rw [show first.normalize = second.normalize from congrArg Path.mk alike]
      rfl

/-- Steps back end at the root, or stay at the front. -/
theorem normalize_plain_climbing :
    (ofString "/p/../..//q/./r.js/").normalize.IsPlainAbsolute ∧
      (ofString "./a/../../..//b").normalize.IsPlainRelative ∧
      (ofString "../../b").normalize = ofString "../../b" := by
  obtain ⟨absolute, relative, _, kept, _⟩ := normalize_plain
  have named : IsName ['b'] := ⟨by decide, by decide, by decide, by decide⟩
  exact ⟨absolute _ (by decide), relative _ (by decide),
    kept _ (.inr (.inr
      ⟨2, [['b']], List.forall_mem_singleton.mpr named, by decide, by decide⟩))⟩

/-! ## Joined paths and paths in lower case -/

/-- However many paths are joined to a path, it does not matter whether the
path is normalized at each step or only in the end. -/
theorem normalize_foldl_join (first : Path) (others : List Path) :
    (others.foldl join first).normalize =
      others.foldl (fun path other => (path.join other).normalize)
        first.normalize := by
  induction others generalizing first with
  | nil => rfl
  | cons other rest inductionHypothesis =>
      rw [List.foldl_cons, List.foldl_cons, inductionHypothesis, normalize_join]

/-- A path can be normalized before another one is joined to it, or others one
after the other, and before it is written in lower case. -/
theorem normalize_join_and_foldCase :
    (∀ first second : Path,
      (first.join second).normalize = (first.normalize.join second).normalize) ∧
    (∀ path : Path, path.normalize.foldCase = path.foldCase.normalize) ∧
    ∀ (first : Path) (others : List Path),
      (others.foldl join first).normalize =
        others.foldl (fun path other => (path.join other).normalize)
          first.normalize :=
  ⟨fun first second => (normalize_join first second).symm, foldCase_normalize,
    normalize_foldl_join⟩

end Path
end CommonJs
