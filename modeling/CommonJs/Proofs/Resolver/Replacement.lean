import CommonJs.Proofs.Resolver.Descent
import CommonJs.Proofs.Resolver.Priority

/-!
# Replacements of files

A request hits an entry of a browser field when it comes down to the
replacement that the entry names, whatever way there is to carry it out. For
the target of a file entry that is a path, no entry of the package applies to
the files that the target itself names. But when the target turns out to be a
directory, the manifest of that directory is asked for its own entries. So
the replacement is what the target leads to without browser fields, unless it
is a directory whose manifest replaces its files in turn.
-/

namespace CommonJs
namespace Resolver

/-! ## First files under other spellings -/

section Keys

variable {tree : FileTree} (config : ResolverConfig)

/-- The paths correspond one by one, each to one with the same key. -/
def SameKeys (tree : FileTree) (paths others : List Path) : Prop :=
  List.Forall₂ (fun path other => tree.key path = tree.key other) paths others

/-- Files with one key have one canonical path. -/
theorem canonicalize_eq_of_key_eq
    {path other : Path}
    (same : tree.key path = tree.key other)
    (isFile : tree.toFileSystem.isFile path = true) :
    tree.canonicalize path = tree.canonicalize other := by
  have sameNode := FileTree.node?_eq_of_key_eq same
  rw [FileTree.isFile_eq, FileTree.toOption_read] at isFile
  rw [FileTree.canonicalize, FileTree.canonicalize, ← sameNode]
  cases found : tree.node? path with
  | none => simp [found] at isFile
  | some node => rfl

/-- The first file depends on the keys of candidates alone. -/
theorem firstFile?_eq_of_sameKeys
    {candidates others : List Path}
    (same : SameKeys tree candidates others) :
    firstFile? ⟨tree.toFileSystem, config⟩ candidates =
      firstFile? ⟨tree.toFileSystem, config⟩ others := by
  unfold firstFile?
  induction same with
  | nil => rfl
  | @cons candidate other _ _ sameFirst _ inductionHypothesis =>
      rw [List.find?_cons, List.find?_cons,
        ← FileTree.isFile_eq_of_key_eq sameFirst]
      cases isFile : tree.toFileSystem.isFile candidate with
      | true => exact congrArg some (canonicalize_eq_of_key_eq sameFirst isFile)
      | false => exact inductionHypothesis

theorem sameKeys_fileCandidates
    {base other : Path}
    (normal : base.IsNormal)
    (otherNormal : other.IsNormal)
    (same : tree.key base = tree.key other) :
    SameKeys tree (fileCandidates ⟨tree.toFileSystem, config⟩ base)
      (fileCandidates ⟨tree.toFileSystem, config⟩ other) := by
  refine .cons same ?_
  rw [List.forall₂_map_left_iff, List.forall₂_map_right_iff, List.forall₂_same]
  exact fun extension _ =>
    FileTree.key_append_eq_of_key_eq normal otherNormal same extension

theorem sameKeys_indexCandidates
    {directory other : Path}
    (same : tree.key directory = tree.key other) :
    SameKeys tree (indexCandidates ⟨tree.toFileSystem, config⟩ directory)
      (indexCandidates ⟨tree.toFileSystem, config⟩ other) := by
  unfold SameKeys indexCandidates
  rw [List.forall₂_map_left_iff, List.forall₂_map_right_iff, List.forall₂_same]
  exact fun extension _ => FileTree.key_join_eq_of_key_eq same _

/-- To leave out the index of the main directory where it is the directory
itself does not change which file is the first. -/
theorem firstFile?_mainFiles
    (tree : FileTree)
    (config : ResolverConfig)
    (directory : Path)
    (main : String) :
    firstFile? ⟨tree.toFileSystem, config⟩
        (mainFiles ⟨tree.toFileSystem, config⟩ directory (some main) ++
          indexCandidates ⟨tree.toFileSystem, config⟩ directory) =
      firstFile? ⟨tree.toFileSystem, config⟩
        (fileCandidates ⟨tree.toFileSystem, config⟩
            (directory.child main).normalize ++
          indexCandidates ⟨tree.toFileSystem, config⟩
              (directory.child main).normalize ++
            indexCandidates ⟨tree.toFileSystem, config⟩ directory) := by
  unfold mainFiles
  dsimp only
  split
  next same =>
    have repeated := firstFile?_eq_of_sameKeys config
      (sameKeys_indexCandidates config (FileTree.key_eq_of_sameWay same tree))
    simp only [firstFile?_append, List.append_nil, Option.or_assoc, repeated,
      Option.or_self]
  next => rfl

/-- All spellings of a directory stand for one file. -/
theorem firstFile?_directoryFiles_eq_of_key_eq
    {directory other : Path}
    (same : tree.key directory = tree.key other) :
    firstFile? ⟨tree.toFileSystem, config⟩
        (directoryFiles ⟨tree.toFileSystem, config⟩ directory) =
      firstFile? ⟨tree.toFileSystem, config⟩
        (directoryFiles ⟨tree.toFileSystem, config⟩ other) := by
  have index := sameKeys_indexCandidates config same
  unfold directoryFiles
  rw [mainOf_eq_of_key_eq same]
  cases mainOf ⟨tree.toFileSystem, config⟩ other with
  | none => exact firstFile?_eq_of_sameKeys config index
  | some main =>
      have mains :
          tree.key (directory.child main).normalize =
            tree.key (other.child main).normalize := by
        rw [FileTree.key_normalize, FileTree.key_normalize]
        exact FileTree.key_join_eq_of_key_eq same _
      rw [firstFile?_mainFiles, firstFile?_mainFiles]
      refine firstFile?_eq_of_sameKeys config
        (List.rel_append (List.rel_append ?_ ?_) index)
      · exact sameKeys_fileCandidates config (Path.isNormal_normalize _)
          (Path.isNormal_normalize _) mains
      · exact sameKeys_indexCandidates config mains

/-- The file that a normal path leads to depends on the key of the path. -/
theorem firstFile?_pathFiles_eq_of_key_eq
    {target other : Path}
    (normal : target.IsNormal)
    (otherNormal : other.IsNormal)
    (same : tree.key target = tree.key other) :
    firstFile? ⟨tree.toFileSystem, config⟩
        (pathFiles ⟨tree.toFileSystem, config⟩ target) =
      firstFile? ⟨tree.toFileSystem, config⟩
        (pathFiles ⟨tree.toFileSystem, config⟩ other) := by
  have files := firstFile?_eq_of_sameKeys config
    (sameKeys_fileCandidates config normal otherNormal same)
  unfold pathFiles
  rw [firstFile?_append, firstFile?_append, files]
  dsimp only
  rw [FileTree.isDirectory_eq_of_key_eq same]
  split
  · rw [firstFile?_directoryFiles_eq_of_key_eq config same]
  · rfl

end Keys

/-! ## Where replacements lead -/

/-- A replacement that leads where a resolution does: to a file, or else to
nothing. -/
def asReplacement : Resolution → Resolution
  | .path path => .path path
  | _ => .unresolved .browserTargetNotFound

theorem asReplacement_ofFinding
    (resolver : Resolver)
    (specifier : String)
    (miss : Reason)
    (candidates : List Path) :
    Resolution.ofFinding miss
        (some (((resolver.firstFile? candidates).map Finding.file).getD
          .missingReplacement)) =
      asReplacement
        (Resolution.ofFinding (missReason specifier)
          ((resolver.firstFile? candidates).map .file)) := by
  cases resolver.firstFile? candidates <;> rfl

/-- A target that is a path, searched for from the directory of its package,
leads where it leads without browser fields. -/
theorem finds_searchReplacement
    {resolver : Resolver}
    (agree : resolver.MainsAgree)
    (replace : Replace)
    (package : PackageDescriptor)
    {target : String}
    (isPath : Specifier.isPath target = true)
    (kind : EntryKind)
    (unreplaced :
      let place := (package.directory.child target).normalize
      resolver.firstFile? (resolver.fileCandidates place) = none →
        resolver.fileSystem.isDirectory place = true →
          resolver.Unreplaced place) :
    resolver.Finds (resolver.searchReplacement replace package target kind)
      (resolver.pathFiles (package.directory.child target).normalize) := by
  rw [searchReplacement, if_pos isPath]
  exact finds_searchPath replace agree unreplaced

/-- When a request hits a file entry whose target is a path, it leads where
the target leads from the directory of the package without browser fields, or
to a replacement that is missing if that is nowhere. The one exception is a
target that is no file but a directory whose own manifest replaces its main
file or one of the files that it stands for. -/
theorem file_replacement_resolved_plainly
    {tree : FileTree}
    (built : tree.Built)
    (config : ResolverConfig)
    {memo : DescriptorMemo}
    (remembers : Remembers ⟨tree.toFileSystem, config⟩ memo)
    {context : Path}
    {specifier : String}
    {origin : Option Path}
    {package : PackageDescriptor}
    {target : String}
    (hits :
      Hits ⟨tree.toFileSystem, config⟩ memo context specifier origin package
        (.path target) .file)
    (isPath : Specifier.isPath target = true)
    (unreplaced :
      let place := (package.directory.child target).normalize
      firstFile? ⟨tree.toFileSystem, config⟩
          (fileCandidates ⟨tree.toFileSystem, config⟩ place) = none →
        tree.toFileSystem.isDirectory place = true →
          Unreplaced ⟨tree.toFileSystem, config⟩ place) :
    ∃ result next plain last,
      resolve ⟨tree.toFileSystem, config⟩ memo context specifier origin =
          some (result, next) ∧
        resolve ⟨tree.toFileSystem, { config with browser := false }⟩ .empty
            package.directory target none = some (plain, last) ∧
          result.resolution = asReplacement plain.resolution := by
  have nonempty : target ≠ "" := by
    rintro rfl
    exact absurd isPath (by decide)
  obtain ⟨between, honest, isResult⟩ := hits.resolve_eq remembers.honest
  obtain ⟨depth, limit⟩ : ∃ depth,
      nestingLimit ⟨tree.toFileSystem, config⟩ = depth + 1 :=
    Nat.exists_eq_succ_of_ne_zero (by simp [nestingLimit])
  obtain ⟨after, ran, _⟩ := finds_searchReplacement (mainsAgree tree config)
    (replaceWithin ⟨tree.toFileSystem, config⟩ depth) package isPath .file
    unreplaced between honest
  obtain ⟨plain, last, plainOutcome, plainly⟩ :=
    resolve_firstFile? (mainsAgree tree { config with browser := false }) rfl
      DescriptorMemo.honest_empty package.directory nonempty none
  rw [limit, replaceWithin, Search.bind_apply, ran] at isResult
  refine ⟨_, _, plain, last, isResult, plainOutcome, ?_⟩
  have samePlace :
      tree.key ((tree.canonicalize package.directory).child target).normalize =
        tree.key (package.directory.child target).normalize := by
    rw [FileTree.key_normalize, FileTree.key_normalize]
    exact FileTree.key_join_eq_of_key_eq
      (FileTree.key_canonicalize built.keyed _) _
  have sameFile :=
    firstFile?_pathFiles_eq_of_key_eq { config with browser := false }
      (Path.isNormal_normalize _) (Path.isNormal_normalize _) samePlace
  rw [plainly, moduleFiles, if_pos isPath]
  exact (asReplacement_ofFinding _ target _ _).trans (congrArg (fun file =>
    asReplacement
      (Resolution.ofFinding (missReason target) (Option.map Finding.file file)))
      sameFile.symm)

/-- A directory without a manifest replaces nothing. -/
theorem unreplaced_of_no_manifest
    {tree : FileTree}
    {config : ResolverConfig}
    {directory : Path}
    (noManifest :
      tree.toFileSystem.isFile (directory.child config.manifest) = false) :
    Unreplaced ⟨tree.toFileSystem, config⟩ directory := by
  intro spelling same
  have undescribed :
      PackageDescriptor.read? tree.toFileSystem config.manifest
        spelling = none := by
    have sameManifest :
        (spelling.child config.manifest).SameWay
          (directory.child config.manifest) :=
      same.join _
    rw [PackageDescriptor.read?, if_neg]
    rw [FileTree.isFile_eq_of_key_eq
      (FileTree.key_eq_of_sameWay sameManifest tree), noManifest]
    exact Bool.false_ne_true
  have unscoped : innerScope ⟨tree.toFileSystem, config⟩ none none = none := by
    simp [innerScope]
  dsimp only
  rw [undescribed, unscoped]
  exact ⟨rfl, fun _ _ => rfl⟩

/-- A package that replaces a file by a directory with an index. -/
def redirected : FileTree :=
  (FileTree.empty.insertFile (.ofString "/p/package.json")
    "\x7b\"browser\":\x7b\"./a.js\":\"./lib\"\x7d\x7d").insertFile
    (.ofString "/p/lib/index.js") ""

/-- An entry that leads to a directory is resolved like the directory. -/
theorem file_replacement_resolved_plainly_redirected :
    ∃ package result next plain last,
      Hits ⟨redirected.toFileSystem, .standard⟩ .empty (.ofString "/p") "./a.js"
          none package (.path "./lib") .file ∧
        resolve ⟨redirected.toFileSystem, .standard⟩ .empty (.ofString "/p")
            "./a.js" none =
          some (result, next) ∧
        resolve ⟨redirected.toFileSystem,
              { ResolverConfig.standard with browser := false }⟩
            .empty package.directory "./lib" none = some (plain, last) ∧
        result.resolution = asReplacement plain.resolution ∧
        result.resolution = .path (.ofString "/p/lib/index.js") := by
  have built : redirected.Built := .insertFile _ _ (.insertFile _ _ .empty)
  have noManifest :
      redirected.toFileSystem.isFile
        (((Path.ofString "/p").child "./lib").normalize.child
          ResolverConfig.standard.manifest) = false := by
    decide +kernel
  have leads :
      (resolve ⟨redirected.toFileSystem, .standard⟩ .empty
          (.ofString "/p") "./a.js"
          none).map (·.1.resolution) =
            some (.path (.ofString "/p/lib/index.js")) := by
    decide +kernel
  obtain ⟨package, directory, hits⟩ :
      ∃ package : PackageDescriptor,
        package.directory = .ofString "/p" ∧
          Hits ⟨redirected.toFileSystem, .standard⟩ .empty (.ofString "/p")
            "./a.js" none package
            (.path "./lib") .file :=
    exists_hits_of_map_fileReplacement? (by decide +kernel) (by decide +kernel)
  rw [← directory] at noManifest
  obtain ⟨result, next, plain, last, outcome, plainOutcome, same⟩ :=
    file_replacement_resolved_plainly built .standard .nothing hits
      (by decide +kernel)
      fun _ _ => unreplaced_of_no_manifest noManifest
  rw [outcome] at leads
  exact ⟨package, result, next, plain, last, hits, outcome, plainOutcome, same,
    Option.some.inj leads⟩

/-- A package that replaces a file by itself, and its main file by another
file. -/
def selfReplacing : FileTree :=
  FileTree.empty.insertFile (.ofString "/p/package.json")
    "\x7b\"main\":\"./m.js\",\"browser\":\x7b\"./a.js\":\".\",\"./m.js\":\"./n.js\"\x7d\x7d"
    |>.insertFile (.ofString "/p/m.js") ""
    |>.insertFile (.ofString "/p/n.js") ""

/-- The target of an entry is a directory whose manifest, here that of the same
package, replaces the main file: the replacement is replaced in turn. -/
theorem replacement_replaced_selfReplacing :
    ∃ package result next plain last,
      Hits ⟨selfReplacing.toFileSystem, .standard⟩ .empty (.ofString "/p")
          "./a.js" none package (.path ".") .file ∧
        Specifier.isPath "." = true ∧
        resolve ⟨selfReplacing.toFileSystem, .standard⟩ .empty (.ofString "/p")
            "./a.js" none =
          some (result, next) ∧
        resolve ⟨selfReplacing.toFileSystem,
              { ResolverConfig.standard with browser := false }⟩
            .empty package.directory "." none = some (plain, last) ∧
        plain.resolution = .path (.ofString "/p/m.js") ∧
        result.resolution = .path (.ofString "/p/n.js") := by
  obtain ⟨package, directory, hits⟩ :
      ∃ package : PackageDescriptor,
        package.directory = .ofString "/p" ∧
          Hits ⟨selfReplacing.toFileSystem, .standard⟩ .empty (.ofString "/p")
            "./a.js" none
            package (.path ".") .file :=
    exists_hits_of_map_fileReplacement? (by decide +kernel) (by decide +kernel)
  have leads :
      (resolve ⟨selfReplacing.toFileSystem, .standard⟩ .empty
          (.ofString "/p") "./a.js"
          none).map (·.1.resolution) = some (.path (.ofString "/p/n.js")) := by
    decide +kernel
  have plainLeads :
      (resolve ⟨selfReplacing.toFileSystem,
            { ResolverConfig.standard with browser := false }⟩
          .empty (.ofString "/p") "." none).map (·.1.resolution) =
        some (.path (.ofString "/p/m.js")) := by
    decide +kernel
  obtain ⟨⟨result, next⟩, outcome, resolution⟩ :=
    Option.map_eq_some_iff.mp leads
  obtain ⟨⟨plain, last⟩, plainOutcome, plainResolution⟩ :=
    Option.map_eq_some_iff.mp plainLeads
  rw [← directory] at plainOutcome
  exact ⟨package, result, next, plain, last, hits, by
    decide +kernel, outcome, plainOutcome, plainResolution, resolution⟩

end Resolver
end CommonJs
