import CommonJs.Proofs.Resolver.Interchangeable

/-!
# Resolvers in step

Two resolvers find the same when they do the same in packages that correspond.
All that they have to agree on is a single question for a descriptor, a single
place that is tried, and what the two file systems say of paths that
correspond; then whole searches are in step, however replacements are nested
in them.
-/

namespace CommonJs
namespace Resolver

open Search (InStep)

/-! ## Two resolvers -/

/-- Two ways to carry out replacements find the same for directories that
correspond. -/
def ReplacesAlike
    (same near : Path → Path → Prop)
    (states : SearchState → SearchState → Prop)
    (replace otherReplace : Replace) : Prop :=
  ∀ package other target kind, same package.directory other.directory →
    InStep states (Finding.Alike near) (replace package target kind)
      (otherReplace other target kind)

/-- Two resolvers that do the same in packages that correspond. Directories
have to correspond more closely than the candidates that are tried: searches
go up from a directory and go on from it, but ask of a candidate no more than
what stands there. Where only one side takes the main directory for the
directory itself, and so leaves out its index, what is left out is searched
later; this calls for states that do not tell how often a place was tried. -/
structure Parallels
    (first second : Resolver)
    (same near : Path → Path → Prop)
    (scopes : Option PackageDescriptor → Option PackageDescriptor → Prop)
    (states : SearchState → SearchState → Prop) : Prop where
  /-- Directories that correspond do so as candidates. -/
  near_of_same {path other : Path} : same path other → near path other
  /-- The relation is kept when a name is added. -/
  child (name : String) {path other : Path} :
    same path other → same (path.child name) (other.child name)
  /-- It is kept when a path is normalized. -/
  normalize {path other : Path} : same path other →
    same path.normalize other.normalize
  /-- Candidates still correspond when an extension is appended. -/
  append (suffix : String) {path other : Path} :
    path.IsNormal → other.IsNormal → near path other →
      near (path.append suffix) (other.append suffix)
  /-- The directories above correspond one by one. -/
  ancestors {path other : Path} :
    same path other → List.Forall₂ same path.ancestors other.ancestors
  /-- Either both sides take the main directory for the directory itself, or the
  order of tries does not show. -/
  mainIndex {main otherMain directory other : Path} :
    same main otherMain → same directory other →
      (main.SameWay directory ↔ otherMain.SameWay other) ∨
        (Search.Rectangular states ∧ same directory otherMain ∧ same main other)
  /-- Outside of packages there are no entries on either side. -/
  noScope : scopes none none
  /-- Candidates have the same replacement, or none. -/
  file {scope otherScope : Option PackageDescriptor} {candidate other : Path} :
    scopes scope otherScope → near candidate other →
      Option.Rel (SameEntry same) (first.fileReplacement? scope candidate)
        (second.fileReplacement? otherScope other)
  /-- So have bare specifiers. -/
  module {scope otherScope : Option PackageDescriptor} (specifier : String) :
    scopes scope otherScope →
      Option.Rel (SameEntry same) (moduleReplacement? scope specifier)
        (moduleReplacement? otherScope specifier)
  /-- The same extensions are tried. -/
  extensions : first.config.extensions = second.config.extensions
  /-- Packages lie in directories of the same names. -/
  packageRoots : first.config.packageRoots = second.config.packageRoots
  /-- Both sides leave out the same directories. -/
  isPackageRoot {path other : Path} :
    same path other → first.isPackageRoot path = second.isPackageRoot other
  /-- Candidates that correspond are files on both sides. -/
  isFile {path other : Path} :
    near path other →
      first.fileSystem.isFile path = second.fileSystem.isFile other
  /-- They are directories on both sides. -/
  isDirectory {path other : Path} :
    near path other →
      first.fileSystem.isDirectory path = second.fileSystem.isDirectory other
  /-- Their canonical paths correspond. -/
  canonicalize {path other : Path} :
    near path other →
      near (first.fileSystem.canonicalize path)
        (second.fileSystem.canonicalize other)
  /-- To try them leaves states that correspond. -/
  tryPlace {place other : Path} :
    near place other →
      InStep states (fun _ _ => True) (Resolver.tryPlace place)
        (Resolver.tryPlace other)
  /-- Directories that correspond say the same of themselves. -/
  describe {directory other : Path} :
    same directory other →
      InStep states (SameOwn same scopes first second)
        (first.describe directory) (second.describe other)
  /-- They lie in packages that correspond. -/
  scopeInside {directory other : Path} :
    same directory other →
      InStep states scopes (first.scopeInside directory)
        (second.scopeInside other)

/-- Specifiers that ask for the same in two contexts: one specifier in contexts
that correspond, or two paths whose targets do. The targets have to correspond
closely only if they are directories. -/
def AskAlike
    (resolver : Resolver)
    (same near : Path → Path → Prop)
    (context other : Path)
    (specifier otherSpecifier : String) : Prop :=
  (specifier = otherSpecifier ∧ same context other) ∨
    (Specifier.isPath specifier = true ∧
      Specifier.isPath otherSpecifier = true ∧
      near (context.child specifier).normalize
        (other.child otherSpecifier).normalize ∧
      (resolver.fileSystem.isDirectory
          (context.child specifier).normalize = true →
        same (context.child specifier).normalize
          (other.child otherSpecifier).normalize))

/-- Specifiers that ask for the same are both paths or both bare. -/
theorem AskAlike.isPath_eq
    {resolver : Resolver}
    {same near : Path → Path → Prop}
    {context other : Path}
    {specifier otherSpecifier : String}
    (ask : resolver.AskAlike same near context other specifier otherSpecifier) :
    Specifier.isPath specifier = Specifier.isPath otherSpecifier := by
  rcases ask with ⟨equal, _⟩ | ⟨isPath, otherIsPath, _⟩
  · rw [equal]
  · rw [isPath, otherIsPath]

theorem AskAlike.eq_empty_iff
    {resolver : Resolver}
    {same near : Path → Path → Prop}
    {context other : Path}
    {specifier otherSpecifier : String}
    (ask : resolver.AskAlike same near context other specifier otherSpecifier) :
    specifier = "" ↔ otherSpecifier = "" := by
  rcases ask with ⟨equal, _⟩ | ⟨isPath, otherIsPath, _⟩
  · rw [equal]
  · exact iff_of_false (Specifier.ne_empty_of_isPath isPath)
      (Specifier.ne_empty_of_isPath otherIsPath)

section Parallels

variable {first second : Resolver} {same near : Path → Path → Prop}
variable {scopes : Option PackageDescriptor → Option PackageDescriptor → Prop}
variable {states : SearchState → SearchState → Prop}
variable {replace otherReplace : Replace}
variable {scope otherScope : Option PackageDescriptor}

/-- Entries that are the same are followed alike. -/
theorem ReplacesAlike.entry
    (replaces : ReplacesAlike same near states replace otherReplace)
    {entry other : PackageDescriptor × BrowserTarget}
    (sameEntry : SameEntry same entry other)
    (kind : EntryKind) :
    FindsAlike near states (some <$> replace entry.1 entry.2 kind)
      (some <$> otherReplace other.1 other.2 kind) := by
  rw [← sameEntry.2]
  exact (replaces _ _ _ kind sameEntry.1).map fun _ _ alike => .some alike

/-! ### Candidates -/

/-- The candidates for a file correspond one by one. -/
theorem Parallels.fileCandidates
    (parallels : Parallels first second same near scopes states)
    {base other : Path}
    (normal : base.IsNormal)
    (otherNormal : other.IsNormal)
    (bases : near base other) :
    List.Forall₂ near (first.fileCandidates base)
      (second.fileCandidates other) := by
  refine .cons bases ?_
  rw [parallels.extensions, List.forall₂_map_left_iff,
    List.forall₂_map_right_iff, List.forall₂_same]
  exact fun extension _ => parallels.append extension normal otherNormal bases

theorem Parallels.indexCandidates
    (parallels : Parallels first second same near scopes states)
    {directory other : Path}
    (directories : same directory other) :
    List.Forall₂ near (first.indexCandidates directory)
      (second.indexCandidates other) := by
  unfold Resolver.indexCandidates
  rw [parallels.extensions, List.forall₂_map_left_iff,
    List.forall₂_map_right_iff, List.forall₂_same]
  exact fun extension _ =>
    parallels.near_of_same (parallels.child _ directories)

/-- The directories for a package correspond one by one. -/
theorem Parallels.packageCandidates
    (parallels : Parallels first second same near scopes states)
    {context other : Path}
    (contexts : same context other)
    (name : String) :
    List.Forall₂ same (first.packageCandidates context name)
      (second.packageCandidates other name) := by
  have outside (path other : Path) (both : same path other) :
      (!first.isPackageRoot path) = true ↔
        (!second.isPackageRoot other) = true := by
    rw [parallels.isPackageRoot both]
  refine List.rel_flatMap (List.rel_filter (fun _ _ both => outside _ _ both)
    (parallels.ancestors contexts)) ?_
  intro ancestor otherAncestor ancestors
  rw [parallels.packageRoots, List.forall₂_map_left_iff,
    List.forall₂_map_right_iff, List.forall₂_same]
  exact fun root _ => parallels.child _ (parallels.child _ ancestors)

/-! ### Searches -/

/-- Candidates are files or replaced on both sides, or on neither. -/
theorem Parallels.searchCandidate
    (parallels : Parallels first second same near scopes states)
    (replaces : ReplacesAlike same near states replace otherReplace)
    (surrounds : scopes scope otherScope)
    {candidate other : Path}
    (candidates : near candidate other) :
    FindsAlike near states (first.searchCandidate replace scope candidate)
      (second.searchCandidate otherReplace otherScope other) := by
  unfold Resolver.searchCandidate
  have entries := parallels.file surrounds candidates
  generalize first.fileReplacement? scope candidate = entry at entries
  generalize second.fileReplacement? otherScope other = otherEntry at entries
  cases entries with
  | some sameEntry => exact replaces.entry sameEntry .file
  | none =>
      refine (parallels.tryPlace candidates).bind fun _ _ _ => ?_
      rw [parallels.isFile candidates]
      split
      · exact InStep.pure (.some (.file (parallels.canonicalize candidates)))
      · exact findsAlike_none

/-- Lists of candidates are tried in the same order. -/
theorem Parallels.searchCandidates
    (parallels : Parallels first second same near scopes states)
    (replaces : ReplacesAlike same near states replace otherReplace)
    (surrounds : scopes scope otherScope)
    {candidates others : List Path}
    (each : List.Forall₂ near candidates others) :
    FindsAlike near states (first.searchCandidates replace scope candidates)
      (second.searchCandidates otherReplace otherScope others) :=
  findsAlike_firstFinding
    (List.rel_map
      (fun _ _ both => parallels.searchCandidate replaces surrounds both) each)

/-- The main and the index are tried in the same order, unless the order does
not show. -/
theorem Parallels.searchDirectoryFiles
    (parallels : Parallels first second same near scopes states)
    (replaces : ReplacesAlike same near states replace otherReplace)
    (surrounds : scopes scope otherScope)
    {directory other : Path}
    (directories : same directory other)
    (main : Option String) :
    FindsAlike near states
      (first.searchDirectoryFiles replace scope directory main)
      (second.searchDirectoryFiles otherReplace otherScope other main) := by
  have index {directory other : Path} (directories : same directory other) :=
    parallels.searchCandidates replaces surrounds
      (parallels.indexCandidates directories)
  cases main with
  | none => exact index directories
  | some main =>
      have mains := parallels.normalize (parallels.child main directories)
      have files := parallels.searchCandidates replaces surrounds
        (parallels.fileCandidates (Path.isNormal_normalize _)
          (Path.isNormal_normalize _) (parallels.near_of_same mains))
      unfold Resolver.searchDirectoryFiles
      dsimp only
      rw [firstFinding_cons, firstFinding_cons (second.searchCandidates _ _ _)]
      refine findsAlike_firstFinding (.cons files (.cons ?_ .nil))
      have inBoth := findsAlike_firstFinding
        (.cons (index mains) (.cons (index directories) .nil))
      rcases parallels.mainIndex mains directories with both |
        ⟨rectangular, crossed, crossedBack⟩
      · by_cases own : (directory.child main).normalize.SameWay directory
        · rw [if_pos own, if_pos (both.mp own), firstFinding_candidates_nil,
            firstFinding_candidates_nil]
          exact index directories
        · rw [if_neg own, if_neg (both.not.mp own)]
          exact inBoth
      · -- A side that leaves out the main directory's index searches it later.
        by_cases own : (directory.child main).normalize.SameWay directory
        · rw [if_pos own, firstFinding_candidates_nil]
          split
          · rw [firstFinding_candidates_nil]
            exact index directories
          · exact inStep_again rectangular optionRel_eq_none_iff (index crossed)
              (index directories)
        · rw [if_neg own]
          split
          · rw [firstFinding_candidates_nil]
            exact inStep_again_left rectangular optionRel_eq_none_iff
              (index crossedBack) (index directories)
          · exact inBoth

/-- Directories that correspond have the same main files and replacements. -/
theorem Parallels.searchDirectory
    (parallels : Parallels first second same near scopes states)
    (replaces : ReplacesAlike same near states replace otherReplace)
    (surrounds : scopes scope otherScope)
    {directory other : Path}
    (directories : same directory other) :
    FindsAlike near states (first.searchDirectory replace scope directory)
      (second.searchDirectory otherReplace otherScope other) := by
  refine (parallels.describe directories).bind fun own otherOwn owns => ?_
  have entries := owns.replacement
  generalize first.mainReplacement? own = entry at entries
  generalize second.mainReplacement? otherOwn = otherEntry at entries
  cases entries with
  | some sameEntry => exact replaces.entry sameEntry .main
  | none =>
      dsimp only
      rw [owns.main]
      exact parallels.searchDirectoryFiles replaces (owns.innerScope surrounds)
        directories _

/-- Paths correspond as candidates, and as directories if they are some. -/
theorem Parallels.searchPath
    (parallels : Parallels first second same near scopes states)
    (replaces : ReplacesAlike same near states replace otherReplace)
    (surrounds : scopes scope otherScope)
    {target other : Path}
    (normal : target.IsNormal)
    (otherNormal : other.IsNormal)
    (targets : near target other)
    (directories : first.fileSystem.isDirectory target = true →
      same target other) :
    FindsAlike near states (first.searchPath replace scope target)
      (second.searchPath otherReplace otherScope other) := by
  have files := parallels.searchCandidates replaces surrounds
    (parallels.fileCandidates normal otherNormal targets)
  refine findsAlike_firstFinding (.cons files (.cons ?_ .nil))
  rw [← parallels.isDirectory targets]
  split
  next isDirectory =>
    exact parallels.searchDirectory replaces surrounds (directories isDirectory)
  next => exact findsAlike_none

/-- A path inside a directory is normal when a search starts at it. -/
theorem Parallels.searchInside
    (parallels : Parallels first second same near scopes states)
    (replaces : ReplacesAlike same near states replace otherReplace)
    (surrounds : scopes scope otherScope)
    {directory other : Path}
    (directories : same directory other)
    (path : String) :
    FindsAlike near states
      (first.searchPath replace scope (directory.child path).normalize)
      (second.searchPath otherReplace otherScope
        (other.child path).normalize) := by
  have targets := parallels.normalize (parallels.child path directories)
  exact parallels.searchPath replaces surrounds (Path.isNormal_normalize _)
    (Path.isNormal_normalize _) (parallels.near_of_same targets)
      fun _ => targets

/-- Packages are directories on both sides or on neither. -/
theorem Parallels.searchPackage
    (parallels : Parallels first second same near scopes states)
    (replaces : ReplacesAlike same near states replace otherReplace)
    (inside : Option String)
    {directory other : Path}
    (directories : same directory other) :
    FindsAlike near states (first.searchPackage replace inside directory)
      (second.searchPackage otherReplace inside other) := by
  rw [searchPackage_eq, searchPackage_eq]
  refine (parallels.tryPlace (parallels.near_of_same directories)).bind
    fun _ _ _ => ?_
  rw [parallels.isDirectory (parallels.near_of_same directories)]
  split
  · refine (parallels.scopeInside directories).bind
      fun own otherOwn surrounds => ?_
    cases inside with
    | some path =>
        exact parallels.searchInside replaces surrounds directories path
    | none =>
        exact parallels.searchDirectory replaces parallels.noScope directories
  · exact findsAlike_none

/-- Bare specifiers have the same module entries and the same packages. -/
theorem Parallels.searchBare
    (parallels : Parallels first second same near scopes states)
    (replaces : ReplacesAlike same near states replace otherReplace)
    (surrounds : scopes scope otherScope)
    {context other : Path}
    (contexts : same context other)
    (specifier : String) :
    FindsAlike near states (first.searchBare replace scope context specifier)
      (second.searchBare otherReplace otherScope other specifier) := by
  unfold Resolver.searchBare
  have entries := parallels.module specifier surrounds
  generalize moduleReplacement? scope specifier = entry at entries
  generalize moduleReplacement? otherScope specifier = otherEntry at entries
  cases entries with
  | some sameEntry => exact replaces.entry sameEntry .module
  | none =>
      exact findsAlike_firstFinding
        (List.rel_map (fun _ _ both => parallels.searchPackage replaces _ both)
          (parallels.packageCandidates contexts _))

/-- A target leads the same way from directories that correspond. -/
theorem Parallels.searchReplacement
    (parallels : Parallels first second same near scopes states)
    (replaces : ReplacesAlike same near states replace otherReplace)
    {package other : PackageDescriptor}
    (directories : same package.directory other.directory)
    (specifier : String)
    (kind : EntryKind) :
    FindsAlike near states
      (first.searchReplacement replace package specifier kind)
      (second.searchReplacement otherReplace other specifier kind) := by
  have asPath :=
    parallels.searchInside replaces parallels.noScope directories specifier
  have asModule :=
    parallels.searchBare replaces parallels.noScope directories specifier
  unfold Resolver.searchReplacement
  split
  · exact asPath
  · split
    · exact asModule
    · exact findsAlike_firstFinding (.cons asPath (.cons asModule .nil))

/-- The induction is on the depth of nesting, which is the same on both
sides. -/
theorem Parallels.replaceWithin
    (parallels : Parallels first second same near scopes states)
    (depth : Nat) :
    ReplacesAlike same near states (first.replaceWithin depth)
      (second.replaceWithin depth) := by
  induction depth with
  | zero =>
      intro package other target kind _
      cases target with
      | stub => exact InStep.pure .stub
      | path specifier => exact fun _ _ _ => .none
  | succ depth inductionHypothesis =>
      intro package other target kind directories
      cases target with
      | stub => exact InStep.pure .stub
      | path specifier =>
          refine (parallels.searchReplacement inductionHypothesis directories
              specifier kind).bind
            fun result otherResult both => InStep.pure ?_
          cases both with
          | none => exact .missingReplacement
          | some alike => exact alike

/-- By induction on the depth, requests that ask for the same find alike. -/
theorem Parallels.search
    (parallels : Parallels first second same near scopes states)
    (depth : Nat)
    {context other : Path}
    (surrounds : scopes scope otherScope)
    {specifier otherSpecifier : String}
    (asks : first.AskAlike same near context other specifier otherSpecifier) :
    FindsAlike near states (first.search depth context scope specifier)
      (second.search depth other otherScope otherSpecifier) := by
  have replaces := parallels.replaceWithin depth
  unfold Resolver.search
  rcases asks with ⟨rfl, contexts⟩ | ⟨isPath, otherIsPath, targets, directories⟩
  · split
    · exact parallels.searchInside replaces surrounds contexts specifier
    · exact parallels.searchBare replaces surrounds contexts specifier
  · rw [if_pos isPath, if_pos otherIsPath]
    exact parallels.searchPath replaces surrounds (Path.isNormal_normalize _)
      (Path.isNormal_normalize _) targets directories

/-- Requests for the same have resolutions that correspond, if the packages
around the places of the requests cannot be told apart. -/
theorem Parallels.resolveWithin
    (parallels : Parallels first second same near scopes states)
    (depth : Nat)
    {limit otherLimit : Option Nat}
    {memo otherMemo : DescriptorMemo}
    {context other : Path}
    {origin otherOrigin : Option Path}
    {specifier otherSpecifier : String}
    (asks :
      first.AskAlike same near (first.fileSystem.canonicalize context)
        (second.fileSystem.canonicalize other) specifier otherSpecifier)
    (starts : states ⟨memo, .start limit⟩ ⟨otherMemo, .start otherLimit⟩)
    (surrounds :
      InStep states scopes
        (first.searchScope (first.fileSystem.canonicalize context) origin)
        (second.searchScope (second.fileSystem.canonicalize other)
          otherOrigin)) :
    Option.Rel
      (fun outcome otherOutcome =>
        Resolution.Alike near outcome.1.resolution otherOutcome.1.resolution ∧
          ∃ trail otherTrail,
            outcome.1.tried = trail.places ∧
              otherOutcome.1.tried = otherTrail.places ∧
                states ⟨outcome.2, trail⟩ ⟨otherOutcome.2, otherTrail⟩)
      (first.resolveWithin depth limit memo context specifier origin)
      (second.resolveWithin depth otherLimit otherMemo other otherSpecifier
        otherOrigin) := by
  by_cases empty : specifier = ""
  · unfold Resolver.resolveWithin
    rw [if_pos empty, if_pos (asks.eq_empty_iff.mp empty)]
    exact .some
      ⟨.unresolved _, .start limit, .start otherLimit, rfl, rfl, starts⟩
  · have ran :=
      (surrounds.bind fun _ _ both => parallels.search depth both asks)
        _ _ starts
    have sameReason : missReason specifier = missReason otherSpecifier := by
      rw [missReason, missReason, asks.isPath_eq]
    rw [resolveWithin_eq _ _ _ _ _ empty,
      resolveWithin_eq _ _ _ _ _ (asks.eq_empty_iff.not.mp empty), sameReason]
    exact optionRel_map ran fun _ _ both =>
      ⟨Resolution.alike_ofFinding both.1 _, _, _, rfl, rfl, both.2⟩

end Parallels

/-! ## Paths compared in one way -/

/-- Two resolvers that do the same wherever they are asked for paths that
correspond, in packages that do. -/
structure Mirrors
    (first second : Resolver)
    (same : Path → Path → Prop)
    (scopes : Option PackageDescriptor → Option PackageDescriptor → Prop)
    (states : SearchState → SearchState → Prop) : Prop where
  /-- The relation is kept by all that searches do with paths. -/
  paths : Path.Respected same
  /-- Outside of packages there are no entries on either side. -/
  noScope : scopes none none
  /-- Packages that correspond have the same replacements. -/
  scope {scope otherScope : Option PackageDescriptor} :
    scopes scope otherScope → SameScope same first second scope otherScope
  /-- The same extensions are tried. -/
  extensions : first.config.extensions = second.config.extensions
  /-- Packages lie in directories of the same names. -/
  packageRoots : first.config.packageRoots = second.config.packageRoots
  /-- Paths that correspond are files on both sides. -/
  isFile {path other : Path} :
    same path other →
      first.fileSystem.isFile path = second.fileSystem.isFile other
  /-- They are directories on both sides. -/
  isDirectory {path other : Path} :
    same path other →
      first.fileSystem.isDirectory path = second.fileSystem.isDirectory other
  /-- Their canonical paths correspond. -/
  canonicalize {path other : Path} :
    same path other →
      same (first.fileSystem.canonicalize path)
        (second.fileSystem.canonicalize other)
  /-- To try them leaves states that correspond. -/
  tryPlace {place other : Path} :
    same place other →
      InStep states (fun _ _ => True) (Resolver.tryPlace place)
        (Resolver.tryPlace other)
  /-- Directories that correspond say the same of themselves. -/
  describe {directory other : Path} :
    same directory other →
      InStep states (SameOwn same scopes first second)
        (first.describe directory) (second.describe other)
  /-- They lie in packages that correspond. -/
  scopeInside {directory other : Path} :
    same directory other →
      InStep states scopes (first.scopeInside directory)
        (second.scopeInside other)

section Mirrors

variable {first second : Resolver} {same : Path → Path → Prop}
variable {scopes : Option PackageDescriptor → Option PackageDescriptor → Prop}
variable {states : SearchState → SearchState → Prop}

/-- Where directories and candidates correspond in one way, searches run in
parallel. -/
theorem Mirrors.parallels
    (mirrors : Mirrors first second same scopes states) :
    Parallels first second same same scopes states where
  near_of_same both := both
  child name _ _ both := mirrors.paths.child name both
  normalize both := mirrors.paths.normalize both
  append suffix _ _ normal otherNormal both :=
    mirrors.paths.append suffix normal otherNormal both
  ancestors both := mirrors.paths.ancestors both
  mainIndex mains directories := .inl (mirrors.paths.sameWay mains directories)
  noScope := mirrors.noScope
  file surrounds candidates := (mirrors.scope surrounds).file candidates
  module specifier surrounds := (mirrors.scope surrounds).module specifier
  extensions := mirrors.extensions
  packageRoots := mirrors.packageRoots
  isPackageRoot both := by
    unfold Resolver.isPackageRoot
    rw [mirrors.paths.fileName both, mirrors.packageRoots]
  isFile both := mirrors.isFile both
  isDirectory both := mirrors.isDirectory both
  canonicalize both := mirrors.canonicalize both
  tryPlace both := mirrors.tryPlace both
  describe both := mirrors.describe both
  scopeInside both := mirrors.scopeInside both

/-- Requests from contexts that correspond have resolutions that do, if the
packages around the places of the requests cannot be told apart. -/
theorem Mirrors.resolveWithin
    (mirrors : Mirrors first second same scopes states)
    (depth : Nat)
    {limit otherLimit : Option Nat}
    {memo otherMemo : DescriptorMemo}
    {context other : Path}
    {origin otherOrigin : Option Path}
    (specifier : String)
    (contexts :
      same (first.fileSystem.canonicalize context)
        (second.fileSystem.canonicalize other))
    (starts : states ⟨memo, .start limit⟩ ⟨otherMemo, .start otherLimit⟩)
    (surrounds :
      InStep states scopes
        (first.searchScope (first.fileSystem.canonicalize context) origin)
        (second.searchScope (second.fileSystem.canonicalize other)
          otherOrigin)) :
    Option.Rel
      (fun outcome otherOutcome =>
        Resolution.Alike same outcome.1.resolution otherOutcome.1.resolution ∧
          ∃ trail otherTrail,
            outcome.1.tried = trail.places ∧
              otherOutcome.1.tried = otherTrail.places ∧
                states ⟨outcome.2, trail⟩ ⟨otherOutcome.2, otherTrail⟩)
      (first.resolveWithin depth limit memo context specifier origin)
      (second.resolveWithin depth otherLimit otherMemo other specifier
        otherOrigin) :=
  mirrors.parallels.resolveWithin depth (.inl ⟨rfl, contexts⟩) starts surrounds

end Mirrors

end Resolver
end CommonJs
