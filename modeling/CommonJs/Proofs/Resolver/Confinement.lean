import CommonJs.Proofs.Path.Below
import CommonJs.Proofs.Resolver.Priority

/-!
# Paths inside packages

A specifier may go on with a path after the name of a package. Without
manifests and browser fields, all candidates for it are written after the
directory of the package, so they lie below it as long as the path does only
go down. Two texts after the name do not go down at all: one that starts with
a slash is a path of its own, and one without steps names the package
directory, to which the extensions are then written.
-/

namespace CommonJs
namespace Resolver

/-- No directory has a manifest. -/
def NoManifest (resolver : Resolver) : Prop :=
  ∀ directory, resolver.fileSystem.isDirectory directory = true →
    resolver.fileSystem.isFile
      (directory.child resolver.config.manifest) = false

section Candidates

variable {resolver : Resolver}
variable (plain : ∀ extension ∈ resolver.config.extensions,
  '/' ∉ extension.toList)

/-- Without a manifest a directory is only its index. -/
theorem NoManifest.directoryFiles_eq
    (noManifest : resolver.NoManifest)
    {directory : Path}
    (isDirectory : resolver.fileSystem.isDirectory directory = true) :
    resolver.directoryFiles directory = resolver.indexCandidates directory := by
  have noMain : resolver.mainOf directory = none := by
    rw [mainOf, PackageDescriptor.read?, if_neg]
    · rfl
    · rw [noManifest directory isDirectory]
      exact Bool.false_ne_true
  rw [directoryFiles, noMain]
  rfl

include plain

/-- The index of a directory lies in it. -/
theorem isBelow_of_mem_indexCandidates
    {directory candidate : Path}
    (present : candidate ∈ resolver.indexCandidates directory) :
    candidate.IsBelow directory := by
  obtain ⟨extension, listed, rfl⟩ := List.mem_map.mp present
  have noSlash : '/' ∉ ("index" ++ extension).toList := by
    simp [plain extension listed]
  have steps : (Path.ofString ("index" ++ extension)).steps =
      [.name ("index" ++ extension).toList] := by
    rw [Path.steps, Path.ofString, Path.segments_of_notMem noSlash]
    simp [Path.stepOf]
  apply Path.isBelow_join
  · simp [Path.isAbsolute, Path.ofString]
  · simp [steps]
  · simp [steps]

/-- The candidates for a normal path below a directory are below it. -/
theorem isBelow_of_mem_fileCandidates
    {base directory candidate : Path}
    (normal : base.IsNormal)
    (below : base.IsBelow directory)
    (present : candidate ∈ resolver.fileCandidates base) :
    candidate.IsBelow directory := by
  rcases List.mem_cons.mp present with self | extended
  · rw [self]
    exact below
  · obtain ⟨extension, listed, rfl⟩ := List.mem_map.mp extended
    exact below.append normal (plain extension listed)

/-- What a package offers at a path without `..` steps lies below the package,
or is the package directory with an extension. The latter takes a path without
steps. -/
theorem NoManifest.isBelow_of_mem_packageFiles
    (noManifest : resolver.NoManifest)
    {directory candidate : Path}
    {inside : String}
    (relative : (Path.ofString inside).isAbsolute = false)
    (noUp : Component.up ∉ (Path.ofString inside).steps)
    (present : candidate ∈ resolver.packageFiles (some inside) directory) :
    candidate.IsBelow directory ∨
      ((Path.ofString inside).steps = [] ∧
        (candidate = directory.normalize ∨
          ∃ extension ∈ resolver.config.extensions,
            candidate = directory.normalize.append extension)) := by
  have belowIndex {target : Path}
      (listed : candidate ∈
        if resolver.fileSystem.isDirectory target then
          resolver.directoryFiles target
        else []) : candidate.IsBelow target := by
    split at listed
    next isDirectory =>
      rw [noManifest.directoryFiles_eq isDirectory] at listed
      exact isBelow_of_mem_indexCandidates plain listed
    next => cases listed
  have normal := Path.isNormal_normalize (directory.child inside)
  by_cases noSteps : (Path.ofString inside).steps = []
  · have target : (directory.child inside).normalize = directory.normalize :=
      Path.normalize_join_of_steps_eq_nil directory relative noSteps
    rw [packageFiles, target] at present
    rcases List.mem_append.mp present with file | index
    · refine .inr ⟨noSteps, ?_⟩
      rcases List.mem_cons.mp file with self | extended
      · exact .inl self
      · obtain ⟨extension, listed, rfl⟩ := List.mem_map.mp extended
        exact .inr ⟨extension, listed, rfl⟩
    · exact .inl ((Path.isBelow_normalize_right _ _).mp (belowIndex index))
  · have targetBelow : (directory.child inside).normalize.IsBelow directory :=
      (Path.isBelow_normalize_left _ _).mpr
        (Path.isBelow_join directory relative noUp noSteps)
    refine .inl ?_
    rcases List.mem_append.mp present with file | index
    · exact isBelow_of_mem_fileCandidates plain normal targetBelow file
    · exact (belowIndex index).trans targetBelow

end Candidates

/-! ## Resolutions inside packages -/

/-- A path after the name of a package that is relative and has no `..` step
stays inside the package. The tree tells letters of different case apart and has
no manifest, browser fields do not count, and no extension has a slash in it.
Then the file that the specifier leads to lies below a package directory of the
name. The one exception is a path without steps, such as the empty one after a
slash at the end: it may also lead to a file next to the package directory, with
the name of the directory and an extension. -/
theorem resolve_inside_package
    {tree : FileTree}
    (built : tree.Built)
    (sensitive : tree.caseSensitive = true)
    {config : ResolverConfig}
    (browserless : config.browser = false)
    (noManifest : NoManifest ⟨tree.toFileSystem, config⟩)
    (plain : ∀ extension ∈ config.extensions, '/' ∉ extension.toList)
    {memo next : DescriptorMemo}
    (remembers : Remembers ⟨tree.toFileSystem, config⟩ memo)
    {context path : Path}
    {specifier name inside : String}
    {origin : Option Path}
    {result : ResolveResult}
    (isBare : Specifier.isPath specifier = false)
    (parts : Specifier.split specifier = (name, some inside))
    (noUp : ['.', '.'] ∉ Path.segments inside.toList)
    (relative : (Path.ofString inside).isAbsolute = false)
    (outcome :
      resolve ⟨tree.toFileSystem, config⟩ memo context specifier origin =
        some (result, next))
    (leads : result.resolution = .path path) :
    ∃ ancestor ∈ (tree.canonicalize context).ancestors,
        ∃ root ∈ config.packageRoots,
      let package := ((ancestor.child root).child name).normalize
      path.IsBelow package ∨
        ((Path.ofString inside).steps = [] ∧
          ∃ extension ∈ config.extensions,
            path = (package.append extension).normalize) := by
  obtain ⟨candidate, present, isFile, rfl⟩ :=
    exists_candidate_of_resolve (mainsAgree tree config) browserless
      remembers.honest outcome leads
  have isCanonical : tree.toFileSystem.canonicalize candidate =
      candidate.normalize :=
    FileTree.canonicalize_of_sensitive sensitive built.keyed candidate
  simp only [moduleFiles, isBare, Bool.false_eq_true, if_false, bareFiles,
    parts] at present
  obtain ⟨directory, inPackages, offered⟩ := List.mem_flatMap.mp present
  obtain ⟨candidates, isDirectory⟩ := List.mem_filter.mp inPackages
  obtain ⟨ancestor, above, root, listed, rfl⟩ :=
    exists_root_of_mem_packageCandidates candidates
  refine ⟨ancestor, above, root, listed, ?_⟩
  dsimp only
  rw [isCanonical]
  rcases noManifest.isBelow_of_mem_packageFiles plain relative
    (Path.up_notMem_steps noUp) offered with below |
    ⟨noSteps, self | ⟨extension, listed, rfl⟩⟩
  · exact .inl (by simpa using below)
  · -- The package directory itself is a candidate, but no file.
    have sameKind := FileTree.isFile_eq_of_key_eq
      (FileTree.key_normalize tree ((ancestor.child root).child name))
    rw [← self] at sameKind
    exact absurd (sameKind.symm.trans isFile)
      (FileSystem.not_isFile_of_isDirectory isDirectory)
  · exact .inr ⟨noSteps, extension, listed, rfl⟩

/-- A tree has no manifest if no node ends in the name of manifests. -/
theorem noManifest_of_fileName
    {tree : FileTree}
    (built : tree.Built)
    (sensitive : tree.caseSensitive = true)
    {config : ResolverConfig}
    {chars : List Char}
    (relative : (Path.ofString config.manifest).isAbsolute = false)
    (step : (Path.ofString config.manifest).steps = [.name chars])
    (unnamed : ∀ entry ∈ tree.nodes.toList,
      entry.2.path.fileName ≠ some chars) :
    NoManifest ⟨tree.toFileSystem, config⟩ := by
  intro directory _
  dsimp only
  rw [← Bool.not_eq_true]
  intro isFile
  have stands : tree.stat (directory.child config.manifest) = some .file :=
    of_decide_eq_true isFile
  obtain ⟨node, found, _⟩ := Option.map_eq_some_iff.mp stands
  have spelled := FileTree.canonicalize_of_sensitive sensitive built.keyed
    (directory.child config.manifest)
  rw [FileTree.canonicalize, found] at spelled
  refine unnamed (_, node)
    (Std.TreeMap.mem_toList_iff_getElem?_eq_some.mpr found) ?_
  rw [show node.path = _ from spelled]
  exact Path.fileName_normalize_child directory relative step

/-- A package next to a file of its name, and a file outside of both. -/
def besidePackage : FileTree :=
  (((FileTree.empty.insertFile (.ofString "/p/node_modules/pkg/index.js")
    "").insertFile (.ofString "/p/node_modules/pkg/etc/secret.js")
      "").insertFile
    (.ofString "/p/node_modules/pkg.js") "").insertFile
    (.ofString "/etc/secret.js") ""

/-- The standard settings, but for browser fields. -/
def browserlessConfig : ResolverConfig :=
  { ResolverConfig.standard with browser := false }

theorem noManifest_besidePackage :
    NoManifest ⟨besidePackage.toFileSystem, browserlessConfig⟩ := by
  have built : besidePackage.Built :=
    .insertFile _ _ (.insertFile _ _ (.insertFile _ _ (.insertFile _ _ .empty)))
  have step : (Path.ofString "package.json").steps =
      [.name "package.json".toList] := by
    decide +kernel
  exact noManifest_of_fileName built rfl (by decide +kernel) step
    (by decide +kernel)

/-- A path with dots stays in the package. -/
theorem resolve_inside_package_besidePackage :
    ∃ result next,
      resolve ⟨besidePackage.toFileSystem, browserlessConfig⟩ .empty
          (.ofString "/p/src") "pkg/./etc/secret" none = some (result, next) ∧
        result.resolution =
          .path (.ofString "/p/node_modules/pkg/etc/secret.js") ∧
        ∃ ancestor ∈ (Path.ofString "/p/src").ancestors,
            ∃ root ∈ ["node_modules"],
          (Path.ofString "/p/node_modules/pkg/etc/secret.js").IsBelow
            ((ancestor.child root).child "pkg").normalize := by
  have built : besidePackage.Built :=
    .insertFile _ _ (.insertFile _ _ (.insertFile _ _ (.insertFile _ _ .empty)))
  have leads :
      (resolve ⟨besidePackage.toFileSystem, browserlessConfig⟩ .empty
          (.ofString "/p/src") "pkg/./etc/secret" none).map (·.1.resolution) =
        some (.path (.ofString "/p/node_modules/pkg/etc/secret.js")) := by
    decide +kernel
  obtain ⟨⟨result, next⟩, outcome, resolution⟩ :=
    Option.map_eq_some_iff.mp leads
  have canonical : besidePackage.canonicalize (.ofString "/p/src") =
      .ofString "/p/src" := by
    decide +kernel
  obtain ⟨ancestor, above, root, listed, below | ⟨noSteps, _⟩⟩ :=
    resolve_inside_package built rfl rfl noManifest_besidePackage
      (by decide +kernel) .nothing
      (show Specifier.isPath "pkg/./etc/secret" = false by decide +kernel)
      (show Specifier.split "pkg/./etc/secret" =
        ("pkg", some "./etc/secret") by decide +kernel)
      (by decide +kernel) (by decide +kernel) outcome resolution
  · rw [canonical] at above
    exact ⟨result, next, outcome, resolution, ancestor, above, root,
      listed, below⟩
  · exact absurd noSteps (by decide +kernel)

/-- A slash in front of the path inside a package makes it a path of its own,
and without steps the path is the package directory, next to which a file of its
name is found first. Both lead out of the package. -/
theorem resolve_outside_package_besidePackage :
    (resolve ⟨besidePackage.toFileSystem, browserlessConfig⟩ .empty
        (.ofString "/p") "pkg//etc/secret.js" none).map (·.1.resolution) =
      some (.path (.ofString "/etc/secret.js")) ∧
    (resolve ⟨besidePackage.toFileSystem, browserlessConfig⟩ .empty
        (.ofString "/p") "pkg/" none).map (·.1.resolution) =
      some (.path (.ofString "/p/node_modules/pkg.js")) ∧
    ∀ path ∈ [Path.ofString "/etc/secret.js",
        .ofString "/p/node_modules/pkg.js"],
      ∀ ancestor ∈ (besidePackage.canonicalize (.ofString "/p")).ancestors,
        ∀ root ∈ browserlessConfig.packageRoots,
          ¬ path.IsBelow ((ancestor.child root).child "pkg").normalize := by
  refine ⟨by decide +kernel, by decide +kernel, ?_⟩
  intro path listed ancestor above root isRoot below
  have notPrefix :
      ∀ path ∈ [Path.ofString "/etc/secret.js",
          .ofString "/p/node_modules/pkg.js"],
        ∀ ancestor ∈ (besidePackage.canonicalize (.ofString "/p")).ancestors,
          ∀ root ∈ browserlessConfig.packageRoots,
            ¬ Path.settle
                ((ancestor.child root).child "pkg").normalize.components <+:
              Path.settle path.components := by
    decide +kernel
  exact notPrefix path listed ancestor above root isRoot below.isPrefix

end Resolver
end CommonJs
