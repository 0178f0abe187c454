import CommonJs.Proofs.Resolver.Memo

/-!
# The order in which files are preferred

Without browser fields, all that a resolver does comes down to one list of
candidates for each request: the first of them that is a file is the answer.
The list is built from the places that a specifier names, each place
followed by what it stands for if it is a directory, and packages nearer to
the context come before those further away. Every search ends with the first
file of its own list, and searches that are tried one after the other end
with the first file of their lists joined.
-/

namespace CommonJs
namespace Resolver

/-! ## Candidates -/

/-- The main file of a directory, and the index files of the directory that
the main file names unless that is the directory itself. -/
def mainFiles
    (resolver : Resolver)
    (directory : Path) : Option String → List Path
  | some main =>
      let mainPath := (directory.child main).normalize
      resolver.fileCandidates mainPath ++
        if mainPath.SameWay directory then []
          else resolver.indexCandidates mainPath
  | none => []

/-- The files that a directory stands for: its main file, then its index. -/
def directoryFiles (resolver : Resolver) (directory : Path) : List Path :=
  resolver.mainFiles directory (resolver.mainOf directory) ++
    resolver.indexCandidates directory

/-- The files that a path stands for: the path itself, the path with each
extension, and what it stands for if it is a directory. -/
def pathFiles (resolver : Resolver) (target : Path) : List Path :=
  resolver.fileCandidates target ++
    if resolver.fileSystem.isDirectory target then
      resolver.directoryFiles target else []

/-- The files that a package stands for, or a path inside it. -/
def packageFiles
    (resolver : Resolver)
    (inside : Option String)
    (directory : Path) : List Path :=
  match inside with
  | some path => resolver.pathFiles (directory.child path).normalize
  | none => resolver.directoryFiles directory

/-- The files that a specifier without a path stands for: those of each
package directory of its name, the nearest one first. -/
def bareFiles
    (resolver : Resolver)
    (context : Path)
    (specifier : String) : List Path :=
  ((resolver.packageCandidates context (Specifier.split specifier).1).filter
      resolver.fileSystem.isDirectory).flatMap
    (resolver.packageFiles (Specifier.split specifier).2)

/-- The files that a specifier stands for in a canonical context, the
preferred ones first. -/
def moduleFiles
    (resolver : Resolver)
    (context : Path)
    (specifier : String) : List Path :=
  if Specifier.isPath specifier then
    resolver.pathFiles (context.child specifier).normalize
  else resolver.bareFiles context specifier

/-- The package directories for a name are those below the package roots next
to the context or above it. -/
theorem exists_root_of_mem_packageCandidates
    {resolver : Resolver}
    {context directory : Path}
    {name : String}
    (present : directory ∈ resolver.packageCandidates context name) :
    ∃ ancestor ∈ context.ancestors, ∃ root ∈ resolver.config.packageRoots,
      (ancestor.child root).child name = directory := by
  obtain ⟨ancestor, above, inRoots⟩ := List.mem_flatMap.mp present
  exact ⟨ancestor, (List.mem_filter.mp above).1, List.mem_map.mp inRoots⟩

/-- The canonical path of the first candidate that is a file. -/
def firstFile? (resolver : Resolver) (candidates : List Path) : Option Path :=
  (candidates.find? resolver.fileSystem.isFile).map
    resolver.fileSystem.canonicalize

/-- Other candidates count only where the first ones are no files. -/
theorem firstFile?_append
    (resolver : Resolver)
    (candidates others : List Path) :
    resolver.firstFile? (candidates ++ others) =
      (resolver.firstFile? candidates).or (resolver.firstFile? others) := by
  rw [firstFile?, List.find?_append, Option.map_or]
  rfl

theorem ofFinding_firstFile?
    (resolver : Resolver)
    (miss : Reason)
    (candidates : List Path) :
    Resolution.ofFinding miss ((resolver.firstFile? candidates).map .file) =
      match candidates.find? resolver.fileSystem.isFile with
      | some file => .path (resolver.fileSystem.canonicalize file)
      | none => .unresolved miss := by
  unfold firstFile?
  cases candidates.find? resolver.fileSystem.isFile with
  | some file => rfl
  | none => rfl

/-- To skip what is no directory is to leave it out. -/
theorem flatMap_if_isDirectory
    (resolver : Resolver)
    (files : Path → List Path)
    (directories : List Path) :
    (directories.flatMap fun directory =>
        if resolver.fileSystem.isDirectory directory then files directory
          else []) =
      (directories.filter resolver.fileSystem.isDirectory).flatMap files := by
  induction directories with
  | nil => rfl
  | cons directory others inductionHypothesis =>
      rw [List.flatMap_cons, List.filter_cons, inductionHypothesis]
      split
      all_goals simp

/-! ## Searches for the first file -/

/-- From an honest memo, a search ends with the first file of a list and
leaves an honest memo. -/
def Finds
    (resolver : Resolver)
    (search : Search (Option Finding))
    (candidates : List Path) : Prop :=
  ∀ before : SearchState,
    before.memo.Honest resolver.fileSystem resolver.config.manifest →
      ∃ after : SearchState,
        search before =
            some ((resolver.firstFile? candidates).map .file, after) ∧
          after.memo.Honest resolver.fileSystem resolver.config.manifest

section Finds

variable {resolver : Resolver}

theorem finds_none : resolver.Finds (pure none) [] :=
  fun before honest => ⟨before, rfl, honest⟩

/-- To note a place as tried does not change what is found. -/
theorem Finds.tryPlace
    {search : Search (Option Finding)}
    {candidates : List Path}
    (place : Path)
    (finds : resolver.Finds search candidates) :
    resolver.Finds (Resolver.tryPlace place >>= fun _ => search) candidates :=
  fun before honest =>
    finds { before with trail := before.trail.add place } honest

/-- A search that is tried before others. The others count only if it finds
nothing. -/
theorem Finds.before
    {search : Search (Option Finding)}
    {others : List (Search (Option Finding))}
    {candidates rest : List Path}
    (first : resolver.Finds search candidates)
    (later :
      resolver.firstFile? candidates = none →
        resolver.Finds (firstFinding others) rest) :
    resolver.Finds (firstFinding (search :: others)) (candidates ++ rest) := by
  intro before honest
  obtain ⟨between, ran, honestBetween⟩ := first before honest
  rw [firstFinding, Search.bind_apply, ran, Option.bind_some, firstFile?_append]
  cases found : resolver.firstFile? candidates with
  | some file => exact ⟨between, rfl, honestBetween⟩
  | none => exact later found between honestBetween

/-- A search that is the last one. -/
theorem Finds.last
    {search : Search (Option Finding)}
    {candidates : List Path}
    (only : resolver.Finds search candidates) :
    resolver.Finds (firstFinding [search]) candidates := by
  have noMore : resolver.Finds (firstFinding []) [] := finds_none
  simpa using only.before fun _ => noMore

/-- Searches of one kind that are tried one after the other end with the first
file of their lists joined. -/
theorem finds_firstFinding_map
    {α : Type}
    {search : α → Search (Option Finding)}
    {candidates : α → List Path}
    {items : List α}
    (each : ∀ item ∈ items, resolver.Finds (search item) (candidates item)) :
    resolver.Finds (firstFinding (items.map search))
      (items.flatMap candidates) := by
  induction items with
  | nil => exact finds_none
  | cons item others inductionHypothesis =>
      rw [List.map_cons, List.flatMap_cons]
      exact (each item List.mem_cons_self).before fun _ =>
        inductionHypothesis fun other present =>
          each other (List.mem_cons_of_mem _ present)

variable (replace : Replace) {scope : Option PackageDescriptor}

/-- A candidate is found if it is a file. -/
theorem finds_searchCandidate
    {candidate : Path}
    (unreplaced : resolver.fileReplacement? scope candidate = none) :
    resolver.Finds (resolver.searchCandidate replace scope candidate)
      [candidate] := by
  intro before honest
  refine ⟨{ before with trail := before.trail.add candidate }, ?_, honest⟩
  rw [searchCandidate, unreplaced, firstFile?]
  by_cases isFile : resolver.fileSystem.isFile candidate = true
  · rw [List.find?_cons_of_pos isFile]
    simp only [isFile, if_true]
    rfl
  · rw [List.find?_cons_of_neg isFile]
    simp only [isFile, Bool.false_eq_true, if_false]
    rfl

/-- Candidates are tried in order. -/
theorem finds_searchCandidates
    {candidates : List Path}
    (unreplaced : ∀ candidate ∈ candidates,
      resolver.fileReplacement? scope candidate = none) :
    resolver.Finds (resolver.searchCandidates replace scope candidates)
      candidates := by
  have each := finds_firstFinding_map fun candidate present =>
    finds_searchCandidate replace (unreplaced candidate present)
  rwa [List.flatMap_singleton'] at each

/-- The files of the main come before the index. -/
theorem finds_searchDirectoryFiles
    {directory : Path}
    {main : Option String}
    (unreplaced : ∀ candidate ∈
        resolver.mainFiles directory main ++ resolver.indexCandidates directory,
      resolver.fileReplacement? scope candidate = none) :
    resolver.Finds (resolver.searchDirectoryFiles replace scope directory main)
      (resolver.mainFiles directory main ++
        resolver.indexCandidates directory) := by
  cases main with
  | none => exact finds_searchCandidates replace unreplaced
  | some main =>
      rw [mainFiles, List.append_assoc] at unreplaced ⊢
      rw [List.forall_mem_append, List.forall_mem_append] at unreplaced
      obtain ⟨files, inside, index⟩ := unreplaced
      refine (finds_searchCandidates replace files).before fun _ => ?_
      refine (finds_searchCandidates replace inside).before fun _ => ?_
      exact (finds_searchCandidates replace index).last

/-- The manifest of a directory replaces none of the files that the directory
stands for. -/
def Unreplaced (resolver : Resolver) (directory : Path) : Prop :=
  ∀ spelling : Path, spelling.SameWay directory →
    let own :=
      PackageDescriptor.read? resolver.fileSystem
        resolver.config.manifest spelling
    resolver.mainReplacement? own = none ∧
      ∀ candidate ∈ resolver.directoryFiles directory,
        resolver.fileReplacement? (resolver.innerScope own none)
          candidate = none

/-- A directory stands for its main or its index. -/
theorem finds_searchDirectory
    (agree : resolver.MainsAgree)
    {directory : Path}
    (unreplaced : resolver.Unreplaced directory) :
    resolver.Finds (resolver.searchDirectory replace none directory)
      (resolver.directoryFiles directory) := by
  intro before honest
  have honestAfter := honest.describe directory
  have sameMain := agree.main_describe honest directory
  obtain ⟨spelling, same, answer⟩ := honest.describe_answer directory
  obtain ⟨noMain, noFiles⟩ := unreplaced spelling same
  rw [← answer] at noMain noFiles
  rw [searchDirectory, Search.bind_apply, describe, Option.bind_some]
  generalize before.memo.describe resolver.fileSystem resolver.config.manifest
      directory =
    answered at honestAfter sameMain noMain noFiles
  obtain ⟨own, memo⟩ := answered
  simp only [noMain]
  rw [directoryFiles, ← sameMain] at noFiles ⊢
  exact finds_searchDirectoryFiles replace noFiles _ honestAfter

/-- A path stands for a file first, and else for a directory. -/
theorem finds_searchPath
    (agree : resolver.MainsAgree)
    {target : Path}
    (unreplaced :
      resolver.firstFile? (resolver.fileCandidates target) = none →
        resolver.fileSystem.isDirectory target = true →
          resolver.Unreplaced target) :
    resolver.Finds (resolver.searchPath replace none target)
      (resolver.pathFiles target) := by
  refine (finds_searchCandidates replace fun _ _ => rfl).before fun noFile =>
    Finds.last ?_
  split
  next isDirectory =>
    exact finds_searchDirectory replace agree (unreplaced noFile isDirectory)
  next => exact finds_none

end Finds

/-! ## Searches without browser fields -/

section Plain

variable {resolver : Resolver} (replace : Replace)
variable (agree : resolver.MainsAgree) (plain : resolver.config.browser = false)

include plain

theorem unreplaced_of_plain
    (directory : Path) : resolver.Unreplaced directory := by
  intro spelling _
  have unscoped (own : Option PackageDescriptor) :
      resolver.innerScope own none = none := by
    simp [innerScope, plain]
  refine ⟨?_, fun candidate _ => by rw [unscoped]; rfl⟩
  cases PackageDescriptor.read? resolver.fileSystem
    resolver.config.manifest spelling
  all_goals simp [mainReplacement?, plain]

include agree

/-- A package is searched only where it is a directory. -/
theorem finds_searchPackage (inside : Option String) (directory : Path) :
    resolver.Finds (resolver.searchPackage replace inside directory)
      (if resolver.fileSystem.isDirectory directory then
        resolver.packageFiles inside directory
      else []) := by
  refine Finds.tryPlace directory ?_
  by_cases isDirectory : resolver.fileSystem.isDirectory directory = true
  · simp only [isDirectory, if_true, plain, Bool.false_eq_true, if_false,
      packageFiles]
    cases inside with
    | some path =>
        exact finds_searchPath replace agree fun _ _ =>
          unreplaced_of_plain plain _
    | none =>
        exact finds_searchDirectory replace agree
          (unreplaced_of_plain plain directory)
  · simp only [isDirectory, Bool.false_eq_true, if_false]
    exact finds_none

/-- The directories for packages are searched from the inside out. -/
theorem finds_searchBare (context : Path) (specifier : String) :
    resolver.Finds (resolver.searchBare replace none context specifier)
      (resolver.bareFiles context specifier) := by
  have each := finds_firstFinding_map fun directory
      (_ : directory ∈
        resolver.packageCandidates context (Specifier.split specifier).1) =>
    finds_searchPackage replace agree plain (Specifier.split specifier).2
      directory
  rw [flatMap_if_isDirectory] at each
  exact each

/-- A request is for a path or for a package. -/
theorem finds_search (depth : Nat) (context : Path) (specifier : String) :
    resolver.Finds (resolver.search depth context none specifier)
      (resolver.moduleFiles context specifier) := by
  unfold search moduleFiles
  split
  · exact finds_searchPath _ agree fun _ _ => unreplaced_of_plain plain _
  · exact finds_searchBare _ agree plain context specifier

/-- Without browser fields, a request has an answer from every honest memo:
the first file of its list. -/
theorem resolve_firstFile?
    {memo : DescriptorMemo}
    (honest : memo.Honest resolver.fileSystem resolver.config.manifest)
    (context : Path)
    {specifier : String}
    (nonempty : specifier ≠ "")
    (origin : Option Path) :
    ∃ result next,
      resolver.resolve memo context specifier origin = some (result, next) ∧
        result.resolution =
          Resolution.ofFinding (missReason specifier)
            ((resolver.firstFile?
              (resolver.moduleFiles (resolver.fileSystem.canonicalize context)
                  specifier)).map
                .file) := by
  have unscoped :
      resolver.scopeOf memo (resolver.fileSystem.canonicalize context) origin =
        (none, memo) := by
    unfold scopeOf
    cases origin <;> simp [plain]
  obtain ⟨after, ran, _⟩ := finds_search agree plain resolver.nestingLimit
    (resolver.fileSystem.canonicalize context) specifier
    ⟨memo, .start (some triedLimit)⟩ honest
  rw [resolve, resolveWithin, if_neg nonempty]
  simp only [unscoped, ran]
  exact ⟨_, _, rfl, rfl⟩

/-- What a request leads to is the canonical spelling of a candidate that is a
file. -/
theorem exists_candidate_of_resolve
    {memo next : DescriptorMemo}
    (honest : memo.Honest resolver.fileSystem resolver.config.manifest)
    {context path : Path}
    {specifier : String}
    {origin : Option Path}
    {result : ResolveResult}
    (outcome : resolver.resolve memo context specifier origin =
      some (result, next))
    (leads : result.resolution = .path path) :
    ∃ candidate ∈ resolver.moduleFiles (resolver.fileSystem.canonicalize
        context) specifier,
      resolver.fileSystem.isFile candidate = true ∧
        resolver.fileSystem.canonicalize candidate = path := by
  have nonempty : specifier ≠ "" := by
    intro empty
    rw [resolve, resolveWithin, if_pos empty] at outcome
    rw [← (Prod.mk.inj (Option.some.inj outcome)).1] at leads
    cases leads
  obtain ⟨result', next', outcome', resolution⟩ :=
    resolve_firstFile? agree plain honest context nonempty origin
  obtain ⟨rfl, rfl⟩ :=
    Prod.mk.inj (Option.some.inj (outcome.symm.trans outcome'))
  rw [leads, ofFinding_firstFile?] at resolution
  split at resolution
  next candidate found =>
    exact ⟨candidate, List.mem_of_find?_eq_some found, List.find?_some found,
      (Resolution.path.inj resolution).symm⟩
  next => cases resolution

end Plain

/-! ## The preferred file -/

/-- Without browser fields, whatever was asked before and wherever a request
comes from, it leads to the first candidate that is a file, in its canonical
spelling. It leads nowhere exactly when no candidate is a file, and the reason
tells a path from a package. -/
theorem resolve_eq_first_candidate
    (tree : FileTree)
    (config : ResolverConfig)
    (plain : config.browser = false)
    {memo : DescriptorMemo}
    (remembers : Remembers ⟨tree.toFileSystem, config⟩ memo)
    (context : Path)
    (specifier : String)
    (nonempty : specifier ≠ "")
    (origin : Option Path) :
    ∃ result next,
      resolve ⟨tree.toFileSystem, config⟩ memo context specifier origin =
          some (result, next) ∧
        result.resolution =
          match (moduleFiles ⟨tree.toFileSystem, config⟩
              (tree.canonicalize context)
              specifier).find? tree.toFileSystem.isFile with
          | some file => .path (tree.canonicalize file)
          | none =>
              .unresolved (if Specifier.isPath specifier then .notFound else
                .packageNotFound) := by
  obtain ⟨result, next, outcome, resolution⟩ :=
    resolve_firstFile? (mainsAgree tree config) plain remembers.honest context
      nonempty origin
  exact ⟨result, next, outcome, resolution.trans (ofFinding_firstFile? _ _ _)⟩

/-- Two packages of one name. The nearer one has no file `lib`, and `lib` in
the other one is a directory with a main file. -/
def nestedPackages : FileTree :=
  (((FileTree.empty.insertFile (.ofString "/p/node_modules/a/index.js")
    "").insertFile (.ofString "/node_modules/a/lib/package.json")
      "\x7b\"main\":\"x\"\x7d").insertFile
    (.ofString "/node_modules/a/lib/x.json") "1").insertFile
    (.ofString "/node_modules/a/lib/index.js") ""

/-- What the nearer package does not have is found in the other one. -/
theorem resolve_eq_first_candidate_nestedPackages :
    ∃ result next,
      resolve ⟨nestedPackages.toFileSystem,
            { ResolverConfig.standard with browser := false }⟩
          .empty (.ofString "/p/src") "a/lib" none = some (result, next) ∧
        result.resolution = .path (.ofString "/node_modules/a/lib/x.json") := by
  obtain ⟨result, next, outcome, resolution⟩ :=
    resolve_eq_first_candidate nestedPackages
      { ResolverConfig.standard with browser := false } rfl .nothing
      (.ofString "/p/src") "a/lib" (by decide) none
  exact ⟨result, next, outcome, resolution.trans (by decide +kernel)⟩

end Resolver
end CommonJs
