import CommonJs.Proofs.Resolver.Descent

/-!
# The calls that a search makes

The functions that search for a module call one another: for a path, for its
candidates, for the directory that it is, for packages and for what replaces
them. A call ends by itself, hands over to a replacement, or tries other calls
one after the other until one of them finds something. What it tries is set as
soon as it is made, and so is what it knows of packages.
-/

namespace CommonJs
namespace Resolver

/-- A call of one of the functions that search for a module. -/
inductive Call
  | candidate (scope : Option PackageDescriptor) (candidate : Path)
  | candidates (scope : Option PackageDescriptor) (candidates : List Path)
  | directory (scope : Option PackageDescriptor) (directory : Path)
  | path (scope : Option PackageDescriptor) (target : Path)
  | package (inside : Option String) (directory : Path)
  | bare (scope : Option PackageDescriptor) (context : Path)
      (specifier : String)
  | replacement (package : PackageDescriptor) (specifier : String)
      (kind : EntryKind)

/-- What a call comes to before it makes calls of its own: it has ended, maybe
with a file, it is replaced, or it tries other calls. -/
inductive Beginning
  | ended (file : Option Path)
  | replaced (package : PackageDescriptor) (target : BrowserTarget)
      (kind : EntryKind)
  | tries (calls : List Call)

/-- The search that a call stands for. -/
def perform
    (resolver : Resolver)
    (replace : Replace) : Call → Search (Option Finding)
  | .candidate scope candidate =>
      resolver.searchCandidate replace scope candidate
  | .candidates scope candidates =>
      resolver.searchCandidates replace scope candidates
  | .directory scope directory =>
      resolver.searchDirectory replace scope directory
  | .path scope target => resolver.searchPath replace scope target
  | .package inside directory => resolver.searchPackage replace inside directory
  | .bare scope context specifier =>
      resolver.searchBare replace scope context specifier
  | .replacement package specifier kind =>
      resolver.searchReplacement replace package specifier kind

/-- The calls for the files that a directory stands for. -/
def directoryCalls
    (resolver : Resolver)
    (scope : Option PackageDescriptor)
    (directory : Path) : Option String → List Call
  | some main =>
      let mainPath := (directory.child main).normalize
      [.candidates scope (resolver.fileCandidates mainPath),
        .candidates scope
          (if mainPath.SameWay directory then []
            else resolver.indexCandidates mainPath),
        .candidates scope (resolver.indexCandidates directory)]
  | none => [.candidates scope (resolver.indexCandidates directory)]

/-- The calls for a replacement. -/
def replacementCalls
    (package : PackageDescriptor)
    (specifier : String)
    (kind : EntryKind) : List Call :=
  let asPath := Call.path none (package.directory.child specifier).normalize
  let asModule := Call.bare none package.directory specifier
  if Specifier.isPath specifier then [asPath]
  else if kind = .module then [asModule]
  else [asPath, asModule]

section Opening

variable (resolver : Resolver)

/-- A candidate is replaced, or else it is tried and is a file or not. -/
def candidateOpening
    (scope : Option PackageDescriptor)
    (candidate : Path)
    (state : SearchState) : Beginning × SearchState :=
  match resolver.fileReplacement? scope candidate with
  | some (package, target) => (.replaced package target .file, state)
  | none =>
      (.ended
          (if resolver.fileSystem.isFile candidate then
            some (resolver.fileSystem.canonicalize candidate)
          else none),
        { state with trail := state.trail.add candidate })

/-- A directory is replaced by its manifest, or else its files are tried. -/
def directoryOpening
    (scope : Option PackageDescriptor)
    (directory : Path)
    (state : SearchState) : Beginning × SearchState :=
  let (own, memo) := resolver.descriptorIn state.memo directory
  (match resolver.mainReplacement? own with
    | some (package, target) => .replaced package target .main
    | none =>
        .tries
          (resolver.directoryCalls (resolver.innerScope own scope) directory
            (own.bind (·.main))),
    { state with memo })

/-- A package directory is noted, and if it is there, what is asked for inside
it is tried. -/
def packageOpening
    (inside : Option String)
    (directory : Path)
    (state : SearchState) : Beginning × SearchState :=
  let state := { state with trail := state.trail.add directory }
  if resolver.fileSystem.isDirectory directory then
    let (own, memo) :=
      if resolver.config.browser then resolver.descriptorIn state.memo directory
      else (none, state.memo)
    (.tries
      [match inside with
        | some path => .path own (directory.child path).normalize
        | none => .directory none directory],
      { state with memo })
  else (.ended none, state)

/-- What a call comes to, and the state in which it goes on from there. -/
def opening : Call → SearchState → Beginning × SearchState
  | .candidate scope candidate, state =>
      resolver.candidateOpening scope candidate state
  | .candidates scope candidates, state =>
      (.tries (candidates.map (.candidate scope)), state)
  | .directory scope directory, state =>
      resolver.directoryOpening scope directory state
  | .path scope target, state =>
      (.tries
          (.candidates scope (resolver.fileCandidates target) ::
            if resolver.fileSystem.isDirectory target then
              [.directory scope target] else []),
        state)
  | .package inside directory, state =>
      resolver.packageOpening inside directory state
  | .bare scope context specifier, state =>
      (match moduleReplacement? scope specifier with
        | some (package, target) => .replaced package target .module
        | none =>
            .tries
              ((resolver.packageCandidates context
                (Specifier.split specifier).1).map
                  (.package (Specifier.split specifier).2)),
        state)
  | .replacement package specifier kind, state =>
      (.tries (replacementCalls package specifier kind), state)

/-- What is left of a search after the beginning of a call. -/
def finish (replace : Replace) :
    Beginning × SearchState → Option (Option Finding × SearchState)
  | (.ended file, state) => some (file.map .file, state)
  | (.replaced package target kind, state) =>
      (some <$> replace package target kind) state
  | (.tries calls, state) =>
      firstFinding (calls.map (resolver.perform replace)) state

end Opening

/-! ## A call is its beginning and what is left after it -/

section Perform

variable {resolver : Resolver} {replace : Replace} {state : SearchState}
variable {scope : Option PackageDescriptor}

/-- A candidate is tried in one piece. -/
theorem searchCandidate_eq_finish (candidate : Path) :
    resolver.searchCandidate replace scope candidate state =
      resolver.finish replace
        (resolver.candidateOpening scope candidate state) := by
  unfold searchCandidate candidateOpening
  cases resolver.fileReplacement? scope candidate with
  | some entry => rfl
  | none =>
      dsimp only
      cases resolver.fileSystem.isFile candidate <;> rfl

/-- A directory is searched by its main file and its index. -/
theorem searchDirectory_eq_finish (directory : Path) :
    resolver.searchDirectory replace scope directory state =
      resolver.finish replace
        (resolver.directoryOpening scope directory state) := by
  rw [searchDirectory, Search.bind_apply, describe, Option.bind_some,
    directoryOpening, descriptorIn]
  generalize state.memo.describe _ _ directory = answered
  obtain ⟨own, memo⟩ := answered
  dsimp only
  cases resolver.mainReplacement? own with
  | some entry => rfl
  | none =>
      cases main : own.bind (·.main) with
      | some _ => rfl
      | none => exact congrFun (firstFinding_singleton _).symm _

/-- A path is searched as a file and then as a directory. -/
theorem searchPath_eq_finish (target : Path) :
    resolver.searchPath replace scope target state =
      resolver.finish replace
        (resolver.opening (.path scope target) state) := by
  unfold searchPath opening finish
  dsimp only
  split
  · rfl
  · exact congrFun (firstFinding_cons _ _) state

/-- A package is searched as a path inside it or as itself. -/
theorem searchPackage_eq_finish (inside : Option String) (directory : Path) :
    resolver.searchPackage replace inside directory state =
      resolver.finish replace
        (resolver.packageOpening inside directory state) := by
  rw [searchPackage_eq, packageOpening, Search.bind_apply]
  change Option.bind (some _) _ = _
  rw [Option.bind_some]
  dsimp only
  split
  · rw [Search.bind_apply, scopeInside]
    dsimp only [finish]
    rw [List.map_singleton, firstFinding_singleton]
    cases inside with
    | some path => cases resolver.config.browser <;> rfl
    | none => cases resolver.config.browser <;> rfl
  · rfl

/-- A bare specifier is replaced by a module entry, or searched in one package
after the other. -/
theorem searchBare_eq_finish (context : Path) (specifier : String) :
    resolver.searchBare replace scope context specifier state =
      resolver.finish replace
        (resolver.opening (.bare scope context specifier) state) := by
  unfold searchBare opening
  dsimp only
  cases moduleReplacement? scope specifier with
  | some entry => rfl
  | none =>
      dsimp only [finish]
      rw [List.map_map]
      rfl

/-- A target is searched as a path or as a bare specifier. -/
theorem searchReplacement_eq_finish
    (package : PackageDescriptor)
    (specifier : String)
    (kind : EntryKind) :
    resolver.searchReplacement replace package specifier kind state =
      resolver.finish replace
        (.tries (replacementCalls package specifier kind), state) := by
  unfold searchReplacement replacementCalls
  dsimp only [finish]
  split
  · exact congrFun (firstFinding_singleton _).symm state
  · split
    · exact congrFun (firstFinding_singleton _).symm state
    · rfl

/-- The calls and entries that an opening lists are those that the functions of
the resolver come to. -/
theorem perform_eq_finish
    (replace : Replace)
    (call : Call)
    (state : SearchState) :
    resolver.perform replace call state =
      resolver.finish replace (resolver.opening call state) := by
  cases call with
  | candidate scope candidate => exact searchCandidate_eq_finish candidate
  | candidates scope candidates =>
      unfold perform opening searchCandidates
      dsimp only [finish]
      rw [List.map_map]
      rfl
  | directory scope directory => exact searchDirectory_eq_finish directory
  | path scope target => exact searchPath_eq_finish target
  | package inside directory => exact searchPackage_eq_finish inside directory
  | bare scope context specifier => exact searchBare_eq_finish context specifier
  | replacement package specifier kind =>
      exact searchReplacement_eq_finish package specifier kind

end Perform

/-! ## What a call tries -/

/-- What a call tries in a state. Calls for a directory and for what lies in a
package ask for the manifest of the directory first. -/
inductive Attempts
    (resolver : Resolver)
    (state : SearchState) : Call → Call → Prop
  | candidate (scope : Option PackageDescriptor) {candidates : List Path}
      {candidate : Path} :
      candidate ∈ candidates →
      Attempts resolver state (.candidates scope candidates)
        (.candidate scope candidate)
  | files (scope : Option PackageDescriptor) (directory : Path)
      (candidates : List Path) :
      Attempts resolver state (.directory scope directory)
        (.candidates
          (resolver.innerScope (resolver.descriptorIn state.memo directory).1
            scope) candidates)
  | exact (scope : Option PackageDescriptor) (target : Path) :
      Attempts resolver state (.path scope target)
        (.candidates scope (resolver.fileCandidates target))
  | directory (scope : Option PackageDescriptor) {target : Path} :
      resolver.fileSystem.isDirectory target = true →
      Attempts resolver state (.path scope target) (.directory scope target)
  | inside {own : Option PackageDescriptor} (path : String) (directory : Path) :
      own = (if resolver.config.browser then
        (resolver.descriptorIn state.memo directory).1 else none) →
      Attempts resolver state (.package (some path) directory)
        (.path own (directory.child path).normalize)
  | whole (directory : Path) :
      Attempts resolver state (.package none directory)
        (.directory none directory)
  | package (scope : Option PackageDescriptor) {context directory : Path}
      {specifier : String} :
      directory ∈ resolver.packageCandidates context
        (Specifier.split specifier).1 →
      Attempts resolver state (.bare scope context specifier)
        (.package (Specifier.split specifier).2 directory)
  | asPath (package : PackageDescriptor) (specifier : String)
      (kind : EntryKind) :
      Attempts resolver state (.replacement package specifier kind)
        (.path none (package.directory.child specifier).normalize)
  | asModule (package : PackageDescriptor) (specifier : String)
      (kind : EntryKind) :
      Attempts resolver state (.replacement package specifier kind)
        (.bare none package.directory specifier)

/-- The entry that a call meets in a state. -/
inductive Meets (resolver : Resolver) (state : SearchState) :
    Call → PackageDescriptor → BrowserTarget → EntryKind → Prop
  | file {scope : Option PackageDescriptor} {candidate : Path}
      {package : PackageDescriptor} {target : BrowserTarget} :
      resolver.fileReplacement? scope candidate = some (package, target) →
      Meets resolver state (.candidate scope candidate) package target .file
  | main (scope : Option PackageDescriptor) {directory : Path}
      {package : PackageDescriptor} {target : BrowserTarget} :
      resolver.mainReplacement? (resolver.descriptorIn state.memo directory).1 =
        some (package, target) →
      Meets resolver state (.directory scope directory) package target .main
  | module {scope : Option PackageDescriptor} (context : Path)
      {specifier : String} {package : PackageDescriptor}
      {target : BrowserTarget} :
      moduleReplacement? scope specifier = some (package, target) →
      Meets resolver state (.bare scope context specifier) package
        target .module

section Opening

variable {resolver : Resolver} {call : Call} {state between : SearchState}

theorem exists_candidates_of_mem_directoryCalls
    {scope : Option PackageDescriptor}
    {directory : Path}
    {main : Option String}
    (present : call ∈ resolver.directoryCalls scope directory main) :
    ∃ candidates, call = .candidates scope candidates := by
  cases main with
  | some main =>
      simp only [directoryCalls, List.mem_cons, List.not_mem_nil, or_false]
        at present
      rcases present with rfl | rfl | rfl
      all_goals exact ⟨_, rfl⟩
  | none => exact ⟨_, List.mem_singleton.mp present⟩

theorem attempts_of_mem_replacementCalls
    {package : PackageDescriptor}
    {specifier : String}
    {kind : EntryKind}
    (present : call ∈ replacementCalls package specifier kind) :
    resolver.Attempts state (.replacement package specifier kind) call := by
  have oneOfTwo :
      call = .path none (package.directory.child specifier).normalize ∨
        call = .bare none package.directory specifier := by
    unfold replacementCalls at present
    split_ifs at present
    · exact .inl (List.mem_singleton.mp present)
    · exact .inr (List.mem_singleton.mp present)
    · simpa using present
  rcases oneOfTwo with rfl | rfl
  · exact .asPath package specifier kind
  · exact .asModule package specifier kind

/-- The calls that an opening is made of are attempts. -/
theorem attempts_of_opening
    {calls : List Call}
    (opens : resolver.opening call state = (.tries calls, between))
    {next : Call}
    (present : next ∈ calls) : resolver.Attempts state call next := by
  cases call with
  | candidate scope candidate =>
      rw [opening, candidateOpening] at opens
      split at opens <;> cases opens
  | candidates scope candidates =>
      cases opens
      obtain ⟨candidate, listed, rfl⟩ := List.mem_map.mp present
      exact .candidate scope listed
  | directory scope directory =>
      rw [opening, directoryOpening] at opens
      dsimp only at opens
      split at opens
      · cases opens
      · cases opens
        obtain ⟨candidates, rfl⟩ :=
          exists_candidates_of_mem_directoryCalls present
        exact .files scope directory candidates
  | path scope target =>
      cases opens
      rcases List.mem_cons.mp present with rfl | later
      · exact .exact scope target
      · split_ifs at later with isDirectory
        · obtain rfl := List.mem_singleton.mp later
          exact .directory scope isDirectory
        · cases later
  | package inside directory =>
      rw [opening, packageOpening] at opens
      dsimp only at opens
      split at opens
      · cases opens
        obtain rfl := List.mem_singleton.mp present
        cases inside with
        | some path =>
            refine .inside path directory ?_
            split <;> rfl
        | none => exact .whole directory
      · cases opens
  | bare scope context specifier =>
      rw [opening] at opens
      split at opens
      · cases opens
      · cases opens
        obtain ⟨directory, listed, rfl⟩ := List.mem_map.mp present
        exact .package scope listed
  | replacement package specifier kind =>
      cases opens
      exact attempts_of_mem_replacementCalls present

/-- An opening that ends in a replacement meets its entry. -/
theorem meets_of_opening
    {package : PackageDescriptor}
    {target : BrowserTarget}
    {kind : EntryKind}
    (opens : resolver.opening call state =
      (.replaced package target kind, between)) :
    resolver.Meets state call package target kind := by
  cases call with
  | candidate scope candidate =>
      rw [opening, candidateOpening] at opens
      split at opens
      next replaced =>
        cases opens
        exact .file replaced
      next => cases opens
  | directory scope directory =>
      rw [opening, directoryOpening] at opens
      dsimp only at opens
      split at opens
      next replaced =>
        cases opens
        exact .main scope replaced
      next => cases opens
  | package inside directory =>
      rw [opening, packageOpening] at opens
      dsimp only at opens
      split at opens <;> cases opens
  | bare scope context specifier =>
      rw [opening] at opens
      split at opens
      next replaced =>
        cases opens
        exact .module context replaced
      next => cases opens
  | candidates | path | replacement => cases opens

end Opening

end Resolver
end CommonJs
