import CommonJs.Resolver.Basic
import Std.Data.TreeMap.Lemmas

/-!
# What every search keeps

A search does two things that matter to those who started it: it ends with a
finding, and it may ask for descriptors on the way. So whatever holds of a
canonical file, of a request for nothing and of a replacement that leads
nowhere holds of every finding, and whatever a question for a descriptor
keeps of the memo is kept by the whole search, however replacements are
nested in it. In particular each remembered answer is the one that the file
system gives.
-/

namespace CommonJs

/-! ## Running searches -/

namespace Search

variable {α β : Type}

/-- One search goes on from the state that the other one leaves. -/
theorem bind_apply
    (search : Search α)
    (next : α → Search β)
    (state : SearchState) :
    (search >>= next) state =
      (search state).bind fun outcome => next outcome.1 outcome.2 := rfl

/-- From a memo with a property, a search ends with such a memo and a result
of the wanted kind. -/
def Ensures
    (keeps : DescriptorMemo → Prop)
    (wanted : α → Prop)
    (search : Search α) : Prop :=
  ∀ before result after, keeps before.memo →
    search before = some (result, after) →
    keeps after.memo ∧ wanted result

variable {keeps : DescriptorMemo → Prop}

theorem Ensures.pure
    {wanted : α → Prop}
    {value : α}
    (fine : wanted value) : Ensures keeps wanted (Pure.pure value) := by
  intro before result after kept outcome
  cases outcome
  exact ⟨kept, fine⟩

/-- What the first search ensures is what the second may rely on. -/
theorem Ensures.bind
    {wantedFirst : α → Prop}
    {wanted : β → Prop}
    {search : Search α}
    {next : α → Search β}
    (first : Ensures keeps wantedFirst search)
    (rest : ∀ value, wantedFirst value → Ensures keeps wanted (next value)) :
    Ensures keeps wanted (search >>= next) := by
  intro before result after kept outcome
  rw [bind_apply] at outcome
  obtain ⟨⟨value, between⟩, ran, continued⟩ :=
    Option.bind_eq_some_iff.mp outcome
  obtain ⟨keptBetween, fine⟩ := first before value between kept ran
  exact rest value fine between result after keptBetween continued

/-- The value may be changed at the end. -/
theorem Ensures.map
    {wantedFirst : α → Prop}
    {wanted : β → Prop}
    {search : Search α}
    {change : α → β}
    (first : Ensures keeps wantedFirst search)
    (fine : ∀ value, wantedFirst value → wanted (change value)) :
    Ensures keeps wanted (change <$> search) :=
  first.bind fun value wantedValue => Ensures.pure (fine value wantedValue)

end Search

namespace Resolver

open Search (Ensures)

/-- A property of memos that questions for descriptors keep, and one of
findings that holds wherever a search may end. -/
structure Tracks
    (resolver : Resolver)
    (keeps : DescriptorMemo → Prop)
    (wanted : Finding → Prop) : Prop where
  /-- A question for a descriptor keeps the property. -/
  describe (memo : DescriptorMemo) (directory : Path) :
    keeps memo →
      keeps
        (memo.describe resolver.fileSystem resolver.config.manifest directory).2
  /-- A file that is found has the other one. -/
  file (candidate : Path) :
    resolver.fileSystem.isFile candidate = true →
      wanted (.file (resolver.fileSystem.canonicalize candidate))
  /-- So has a request that is stubbed. -/
  stub : wanted .stub
  /-- So has a replacement that is missing. -/
  missingReplacement : wanted .missingReplacement

/-- A search whose finding, if it has one, is of the wanted kind. -/
abbrev EnsuresFinding
    (keeps : DescriptorMemo → Prop)
    (wanted : Finding → Prop)
    (search : Search (Option Finding)) : Prop :=
  Ensures keeps (fun result => ∀ finding ∈ result, wanted finding) search

section Tracks

variable {resolver : Resolver} {keeps : DescriptorMemo → Prop}
  {wanted : Finding → Prop}
variable {replace : Replace}

/-- To try a place does not touch the memo. -/
theorem ensures_tryPlace (place : Path) :
    Ensures keeps (fun _ => True) (tryPlace place) := by
  intro before result after kept outcome
  cases outcome
  exact ⟨kept, trivial⟩

/-- To ask for a descriptor keeps the property of memos. -/
theorem Tracks.ensures_describe
    (tracks : resolver.Tracks keeps wanted)
    (directory : Path) :
    Ensures keeps (fun _ => True) (resolver.describe directory) := by
  intro before result after kept outcome
  cases outcome
  exact ⟨tracks.describe before.memo directory kept, trivial⟩

theorem ensures_none : EnsuresFinding keeps wanted (pure none) :=
  Ensures.pure (by simp)

/-- The first finding is a finding of one of the searches. -/
theorem ensures_firstFinding
    {searches : List (Search (Option Finding))}
    (each : ∀ search ∈ searches, EnsuresFinding keeps wanted search) :
    EnsuresFinding keeps wanted (firstFinding searches) := by
  induction searches with
  | nil => exact ensures_none
  | cons search others inductionHypothesis =>
      refine (each search List.mem_cons_self).bind fun result fine => ?_
      cases result with
      | some finding => exact Ensures.pure fine
      | none =>
          exact inductionHypothesis fun other present =>
            each other (List.mem_cons_of_mem _ present)

/-- Each way to carry out replacements that a search is given tracks as
well. -/
abbrev EnsuresReplace
    (keeps : DescriptorMemo → Prop)
    (wanted : Finding → Prop)
    (replace : Replace) : Prop :=
  ∀ package target kind, Ensures keeps wanted (replace package target kind)

theorem ensures_replace
    (replaces : EnsuresReplace keeps wanted replace)
    (package : PackageDescriptor)
    (target : BrowserTarget)
    (kind : EntryKind) :
    EnsuresFinding keeps wanted (some <$> replace package target kind) :=
  (replaces package target kind).map fun finding fine => by simpa using fine

/-- A candidate that is found is a file, or its entry is followed. -/
theorem Tracks.ensures_searchCandidate
    (tracks : resolver.Tracks keeps wanted)
    (replaces : EnsuresReplace keeps wanted replace)
    (scope : Option PackageDescriptor)
    (candidate : Path) :
    EnsuresFinding keeps wanted
      (resolver.searchCandidate replace scope candidate) := by
  unfold searchCandidate
  split
  next package target _ => exact ensures_replace replaces package target .file
  next =>
    refine (ensures_tryPlace candidate).bind fun _ _ => ?_
    split
    next isFile =>
      exact Ensures.pure (by simpa using tracks.file candidate isFile)
    next => exact ensures_none

theorem Tracks.ensures_searchCandidates
    (tracks : resolver.Tracks keeps wanted)
    (replaces : EnsuresReplace keeps wanted replace)
    (scope : Option PackageDescriptor)
    (candidates : List Path) :
    EnsuresFinding keeps wanted
      (resolver.searchCandidates replace scope candidates) := by
  refine ensures_firstFinding fun search present => ?_
  obtain ⟨candidate, _, rfl⟩ := List.mem_map.mp present
  exact tracks.ensures_searchCandidate replaces scope candidate

theorem Tracks.ensures_searchDirectoryFiles
    (tracks : resolver.Tracks keeps wanted)
    (replaces : EnsuresReplace keeps wanted replace)
    (scope : Option PackageDescriptor)
    (directory : Path)
    (main : Option String) :
    EnsuresFinding keeps wanted
      (resolver.searchDirectoryFiles replace scope directory main) := by
  cases main with
  | none => exact tracks.ensures_searchCandidates replaces scope _
  | some main =>
      refine ensures_firstFinding fun search present => ?_
      simp only [List.mem_cons, List.not_mem_nil, or_false] at present
      rcases present with rfl | rfl | rfl
      all_goals exact tracks.ensures_searchCandidates replaces scope _

/-- A directory asks for its descriptor and then tries its files. -/
theorem Tracks.ensures_searchDirectory
    (tracks : resolver.Tracks keeps wanted)
    (replaces : EnsuresReplace keeps wanted replace)
    (scope : Option PackageDescriptor)
    (directory : Path) :
    EnsuresFinding keeps wanted
      (resolver.searchDirectory replace scope directory) := by
  refine (tracks.ensures_describe directory).bind fun own _ => ?_
  split
  next package target _ => exact ensures_replace replaces package target .main
  next => exact tracks.ensures_searchDirectoryFiles replaces _ directory _

/-- A path is tried as a file and searched as a directory. -/
theorem Tracks.ensures_searchPath
    (tracks : resolver.Tracks keeps wanted)
    (replaces : EnsuresReplace keeps wanted replace)
    (scope : Option PackageDescriptor)
    (target : Path) :
    EnsuresFinding keeps wanted (resolver.searchPath replace scope target) := by
  refine ensures_firstFinding fun search present => ?_
  simp only [List.mem_cons, List.not_mem_nil, or_false] at present
  rcases present with rfl | rfl
  · exact tracks.ensures_searchCandidates replaces scope _
  · split
    · exact tracks.ensures_searchDirectory replaces scope target
    · exact ensures_none

/-- A package is searched as a path or as a directory. -/
theorem Tracks.ensures_searchPackage
    (tracks : resolver.Tracks keeps wanted)
    (replaces : EnsuresReplace keeps wanted replace)
    (inside : Option String)
    (directory : Path) :
    EnsuresFinding keeps wanted
      (resolver.searchPackage replace inside directory) := by
  refine (ensures_tryPlace directory).bind fun _ _ => ?_
  split
  · cases inside with
    | some path =>
        have inner := fun own =>
          tracks.ensures_searchPath replaces own
            (directory.child path).normalize
        dsimp only
        split
        · exact (tracks.ensures_describe directory).bind fun own _ => inner own
        · exact inner none
    | none =>
        have inner := tracks.ensures_searchDirectory replaces none directory
        dsimp only
        split
        · exact (tracks.ensures_describe directory).bind fun _ _ => inner
        · exact inner
  · exact ensures_none

/-- A bare specifier is replaced or searched in packages. -/
theorem Tracks.ensures_searchBare
    (tracks : resolver.Tracks keeps wanted)
    (replaces : EnsuresReplace keeps wanted replace)
    (scope : Option PackageDescriptor)
    (context : Path)
    (specifier : String) :
    EnsuresFinding keeps wanted
      (resolver.searchBare replace scope context specifier) := by
  unfold searchBare
  split
  next package target _ => exact ensures_replace replaces package target .module
  next =>
    refine ensures_firstFinding fun search present => ?_
    obtain ⟨directory, _, rfl⟩ := List.mem_map.mp present
    exact tracks.ensures_searchPackage replaces _ directory

/-- A target is searched like a specifier. -/
theorem Tracks.ensures_searchReplacement
    (tracks : resolver.Tracks keeps wanted)
    (replaces : EnsuresReplace keeps wanted replace)
    (package : PackageDescriptor)
    (specifier : String)
    (kind : EntryKind) :
    EnsuresFinding keeps wanted
      (resolver.searchReplacement replace package specifier kind) := by
  have asPath := tracks.ensures_searchPath replaces none
    (package.directory.child specifier).normalize
  have asModule :=
    tracks.ensures_searchBare replaces none package.directory specifier
  unfold searchReplacement
  split
  · exact asPath
  · split
    · exact asModule
    · refine ensures_firstFinding fun search present => ?_
      simp only [List.mem_cons, List.not_mem_nil, or_false] at present
      rcases present with rfl | rfl
      · exact asPath
      · exact asModule

/-- The induction is on the depth of nesting: a replacement is a search whose
own replacements are nested less deep. -/
theorem Tracks.ensures_replaceWithin
    (tracks : resolver.Tracks keeps wanted)
    (depth : Nat) :
    EnsuresReplace keeps wanted (resolver.replaceWithin depth) := by
  induction depth with
  | zero =>
      intro package target kind
      cases target with
      | stub => exact Ensures.pure tracks.stub
      | path specifier =>
          intro before result after _ outcome
          cases outcome
  | succ depth inductionHypothesis =>
      intro package target kind
      cases target with
      | stub => exact Ensures.pure tracks.stub
      | path specifier =>
          have search := tracks.ensures_searchReplacement inductionHypothesis
            package specifier kind
          refine search.bind fun result fine => Ensures.pure ?_
          cases result with
          | none => exact tracks.missingReplacement
          | some finding => exact fine finding rfl

/-- By induction on the depth, a search finds what is wanted, and keeps the
property. -/
theorem Tracks.ensures_search
    (tracks : resolver.Tracks keeps wanted)
    (depth : Nat)
    (context : Path)
    (scope : Option PackageDescriptor)
    (specifier : String) :
    EnsuresFinding keeps wanted
      (resolver.search depth context scope specifier) := by
  have replaces := tracks.ensures_replaceWithin depth
  unfold search
  split
  · exact tracks.ensures_searchPath replaces scope _
  · exact tracks.ensures_searchBare replaces scope context specifier

/-- Directories are asked one after the other. -/
theorem Tracks.firstOf
    (tracks : resolver.Tracks keeps wanted)
    (directories : List Path)
    {memo : DescriptorMemo}
    (kept : keeps memo) :
    keeps (DescriptorMemo.firstOf resolver.fileSystem resolver.config.manifest
      directories memo).2 := by
  induction directories generalizing memo with
  | nil => exact kept
  | cons directory others inductionHypothesis =>
      have keptNext := tracks.describe memo directory kept
      rw [DescriptorMemo.firstOf]
      split
      next answered => simpa [answered] using keptNext
      next answered =>
        exact inductionHypothesis (by simpa [answered] using keptNext)

/-- The package around a context is found by such questions. -/
theorem Tracks.scopeOf
    (tracks : resolver.Tracks keeps wanted)
    {memo : DescriptorMemo}
    (kept : keeps memo)
    (context : Path)
    (origin : Option Path) :
    keeps (resolver.scopeOf memo context origin).2 := by
  unfold Resolver.scopeOf
  split
  all_goals
    split
    · exact tracks.firstOf _ kept
    · exact kept

/-- A resolution that leads to a file leads to a wanted finding. -/
theorem Tracks.resolve
    (tracks : resolver.Tracks keeps wanted)
    {memo next : DescriptorMemo}
    {context : Path}
    {specifier : String}
    {origin : Option Path}
    {result : ResolveResult}
    (kept : keeps memo)
    (outcome : resolver.resolve memo context specifier origin =
      some (result, next)) :
    keeps next ∧ ∀ path, result.resolution = .path path →
      wanted (.file path) := by
  unfold Resolver.resolve resolveWithin at outcome
  split at outcome
  · cases outcome
    exact ⟨kept, by simp⟩
  · have keptScope :=
      tracks.scopeOf kept (resolver.fileSystem.canonicalize context) origin
    dsimp only at outcome
    split at outcome
    next => cases outcome
    next finding state ran =>
      cases outcome
      obtain ⟨keptAfter, fine⟩ :=
        tracks.ensures_search _ _ _ _ _ _ _ keptScope ran
      refine ⟨keptAfter, fun path isPath => ?_⟩
      unfold Resolution.ofFinding at isPath
      split at isPath
      next found =>
        rw [← Resolution.path.inj isPath]
        exact fine (.file found) rfl
      all_goals cases isPath

end Tracks

end Resolver
end CommonJs
