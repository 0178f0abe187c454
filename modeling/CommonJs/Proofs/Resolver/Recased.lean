import CommonJs.Proofs.Package.Recased
import CommonJs.Proofs.Path.Recased
import CommonJs.Proofs.Resolver.Canonical
import CommonJs.Proofs.Resolver.Replacement
import CommonJs.Proofs.Resolver.Simulation

/-!
# Requests that differ in the case of letters

A tree that ignores the case of letters has one key for all spellings of a
path, and whatever a resolver asks of the tree or looks up in a browser field
it asks for under a key. Only one thing is compared as it is spelled: whether
a directory has the name of a package root, and so is no place to look for
packages right inside it. Where two requests agree on that, they run in step,
although one of them may try an index twice that the other tries once, and
lead to the same file.
-/

namespace CommonJs

/-- Whether a step has the name of a package root. -/
def ResolverConfig.isRoot
    (config : ResolverConfig)
    (chars : List Char) : Bool :=
  config.packageRoots.contains (String.ofList chars)

/-- Step by step, two paths have the names of package roots in the same
places. -/
def ResolverConfig.SameRoots
    (config : ResolverConfig)
    (path other : Path) : Prop :=
  path.components.map (fun step => config.isRoot step.chars) =
    other.components.map fun step => config.isRoot step.chars

instance (config : ResolverConfig) (path other : Path) :
    Decidable (config.SameRoots path other) :=
  inferInstanceAs (Decidable (path.components.map _ = other.components.map _))

/-- Specifiers that are one, or two paths that are equal but for the case of
letters. -/
def Specifier.Recased (specifier other : String) : Prop :=
  specifier = other ∨
    (Specifier.isPath specifier = true ∧ Specifier.isPath other = true ∧
      (Path.ofString specifier).foldCase = (Path.ofString other).foldCase)

namespace FileTree

variable {tree : FileTree} (insensitive : tree.caseSensitive = false)
variable {test : List Char → Bool} {path other : Path}

include insensitive

/-- Where case does not count, the case of names does not count for keys. -/
theorem key_eq_of_recased (recased : path.Recased test other) :
    tree.key path = tree.key other :=
  key_eq_of_sameWay_foldCase insensitive recased.sameWay_foldCase

theorem key_eq_of_foldCase_eq (same : path.foldCase = other.foldCase) :
    tree.key path = tree.key other :=
  key_eq_of_sameWay_foldCase insensitive (congrArg Path.components same)

theorem key_join_eq_of_foldCase_eq
    (directory : Path)
    (same : path.foldCase = other.foldCase) :
    tree.key (directory.join path) = tree.key (directory.join other) := by
  apply key_eq_of_foldCase_eq insensitive
  rw [Path.foldCase_join, Path.foldCase_join, same]

/-- Normal paths with one key have the same steps in lower case. -/
theorem recased_of_key_eq
    {config : ResolverConfig}
    (normal : path.IsNormal)
    (otherNormal : other.IsNormal)
    (same : tree.key path = tree.key other)
    (roots : config.SameRoots path other) : path.Recased config.isRoot other :=
  .of_map_eq
    (map_foldCase_eq_of_key_eq insensitive normal otherNormal same) roots

/-- The canonical path has the key of every spelling. -/
theorem key_canonicalize_eq_of_foldCase_eq
    (keyed : tree.Keyed)
    (same : path.foldCase = other.foldCase) :
    tree.key (tree.canonicalize path) = tree.key (tree.canonicalize other) := by
  rw [key_canonicalize keyed, key_canonicalize keyed]
  exact key_eq_of_foldCase_eq insensitive same

end FileTree

namespace Resolver

open Search (InStep)

/-- The last step of a path decides whether the path ends in the name of a
package root. -/
theorem isPackageRoot_eq_of_recased
    {resolver : Resolver}
    {path other : Path}
    (recased : path.Recased resolver.config.isRoot other) :
    resolver.isPackageRoot path = resolver.isPackageRoot other := by
  have lasts : Option.Rel (Component.Recased resolver.config.isRoot)
      path.components.getLast? other.components.getLast? := by
    rw [← List.head?_reverse, ← List.head?_reverse]
    have reversed := List.rel_reverse recased
    generalize path.components.reverse = steps at reversed ⊢
    generalize other.components.reverse = otherSteps at reversed ⊢
    cases reversed with
    | nil => exact .none
    | cons first _ => exact .some first
  unfold isPackageRoot Path.fileName
  generalize path.components.getLast? = last at lasts
  generalize other.components.getLast? = otherLast at lasts
  cases lasts with
  | none => rfl
  | some both =>
      rcases both.eq_or_name with rfl | ⟨chars, otherChars, rfl, rfl⟩
      · rfl
      · exact both.test

/-- Descriptors of one manifest under two spellings. -/
abbrev Recounted (tree : FileTree) (config : ResolverConfig) :
    PackageDescriptor → PackageDescriptor → Prop :=
  PackageDescriptor.Counterpart tree (Path.Recased config.isRoot)

section Requests

variable {tree : FileTree} (keyed : tree.Keyed)
  (insensitive : tree.caseSensitive = false)
variable (config : ResolverConfig)

include keyed

/-- Manifests in directories that are one name the same replacements. -/
theorem interchangeable_recounted :
    Interchangeable ⟨tree.toFileSystem, config⟩ ⟨tree.toFileSystem, config⟩
      (Path.Recased config.isRoot)
      (fun path other => tree.key path = tree.key other)
      (Recounted tree config) where
  browser := rfl
  directory both := both.directory
  main both := both.main
  mainEntry both := both.browser.main
  module specifier both := congrArg (·[specifier]?) both.browser.modules
  file both same := both.browser.file? keyed same

/-- Files that are found under one key are one file. -/
theorem resolution_eq_of_alike
    {memo next otherMemo otherNext : DescriptorMemo}
    {context other : Path}
    {specifier otherSpecifier : String}
    {origin otherOrigin : Option Path}
    {result otherResult : ResolveResult}
    (outcome :
      resolve ⟨tree.toFileSystem, config⟩ memo context specifier origin =
        some (result, next))
    (otherOutcome :
      resolve ⟨tree.toFileSystem, config⟩ otherMemo other otherSpecifier
          otherOrigin =
        some (otherResult, otherNext))
    (alike :
      Resolution.Alike (fun path other => tree.key path = tree.key other)
        result.resolution otherResult.resolution) :
    result.resolution = otherResult.resolution := by
  have names := tracks_namesCanonicalFile keyed config
  generalize first : result.resolution = resolution at alike ⊢
  generalize second : otherResult.resolution = otherResolution at alike ⊢
  cases alike with
  | stub => rfl
  | unresolved reason => rfl
  | @path path otherPath same =>
      obtain ⟨isFile, canonical⟩ :=
        (names.resolve trivial outcome).2 path first path rfl
      obtain ⟨_, otherCanonical⟩ :=
        (names.resolve trivial otherOutcome).2 otherPath second otherPath rfl
      rw [← canonical, ← otherCanonical, canonicalize_eq_of_key_eq same isFile]

include insensitive

/-- Honest memos answer alike for directories that are one. -/
theorem answersAlike_recounted :
    AnswersAlike ⟨tree.toFileSystem, config⟩ ⟨tree.toFileSystem, config⟩
      (Path.Recased config.isRoot) (Option.Rel (Recounted tree config)) := by
  refine answersAlike_of_read?
    fun directory other spelling otherSpelling both spells spells' => ?_
  have respelled := both.congr spells spells'
  exact PackageDescriptor.counterpart_read? keyed respelled
    (FileTree.key_eq_of_recased insensitive respelled) _

/-- A resolver does the same for all cases of a path that leave the names of
package roots alone. -/
theorem parallels_recased :
    Parallels ⟨tree.toFileSystem, config⟩ ⟨tree.toFileSystem, config⟩
      (Path.Recased config.isRoot)
      (fun path other => tree.key path = tree.key other)
      (Option.Rel (Recounted tree config))
      (HonestMemos ⟨tree.toFileSystem, config⟩
        ⟨tree.toFileSystem, config⟩) where
  near_of_same both := FileTree.key_eq_of_recased insensitive both
  child name _ _ both := both.child name
  normalize both := both.normalize
  append suffix _ _ normal otherNormal same :=
    FileTree.key_append_eq_of_key_eq normal otherNormal same suffix
  ancestors both := both.ancestors
  mainIndex {main otherMain directory other} mains directories := by
    by_cases own : main.SameWay directory
    · by_cases otherOwn : otherMain.SameWay other
      · exact .inl (iff_of_true own otherOwn)
      · exact .inr ⟨HonestMemos.rectangular, mains.congr own.symm rfl,
          directories.congr own rfl⟩
    · by_cases otherOwn : otherMain.SameWay other
      · exact .inr ⟨HonestMemos.rectangular, directories.congr rfl otherOwn,
          mains.congr rfl otherOwn.symm⟩
      · exact .inl (iff_of_false own otherOwn)
  noScope := .none
  file scopes candidates :=
    (interchangeable_recounted keyed config).fileReplacement? scopes candidates
  module specifier scopes :=
    (interchangeable_recounted keyed config).moduleReplacement? scopes specifier
  extensions := rfl
  packageRoots := rfl
  isPackageRoot both := isPackageRoot_eq_of_recased both
  isFile same := FileTree.isFile_eq_of_key_eq same
  isDirectory same := FileTree.isDirectory_eq_of_key_eq same
  canonicalize {path other} same :=
    (FileTree.key_canonicalize keyed path).trans
      (same.trans (FileTree.key_canonicalize keyed other).symm)
  tryPlace {place other} _ := HonestMemos.tryPlace place other
  describe both :=
    AnswersAlike.describe
      (fun _ _ _ _ both honest otherHonest =>
        (interchangeable_recounted keyed config).sameOwn
          (answersAlike_recounted keyed insensitive config _ _ _ _ both honest
            otherHonest))
      overHonest_honestMemos both
  scopeInside both :=
    (answersAlike_recounted keyed insensitive config).scopeInside
      overHonest_honestMemos rfl both

/-- The places of two requests have corresponding steps if package roots stand
in the same places in them. -/
theorem recased_owner
    {context other : Path}
    {origin otherOrigin : Option Path}
    (contexts : context.foldCase = other.foldCase)
    (origins :
      Option.Rel (fun origin other : Path => origin.foldCase = other.foldCase)
        origin otherOrigin)
    (roots :
      config.SameRoots
        (owner ⟨tree.toFileSystem, config⟩ (tree.canonicalize context) origin)
        (owner ⟨tree.toFileSystem, config⟩ (tree.canonicalize other)
          otherOrigin)) :
    (owner ⟨tree.toFileSystem, config⟩ (tree.canonicalize context)
        origin).Recased config.isRoot
      (owner ⟨tree.toFileSystem, config⟩ (tree.canonicalize other)
        otherOrigin) := by
  have normal := FileTree.isNormal_canonicalize keyed
  cases origins with
  | none =>
      exact FileTree.recased_of_key_eq insensitive (normal _) (normal _)
        (FileTree.key_canonicalize_eq_of_foldCase_eq insensitive keyed contexts)
        roots
  | some folded =>
      exact FileTree.recased_of_key_eq insensitive (normal _) (normal _)
        (FileTree.key_canonicalize_eq_of_foldCase_eq insensitive keyed folded)
        roots

/-- Requests for the same that are made in places whose steps correspond have
one resolution. -/
theorem map_resolution_eq_of_askAlike
    {memo otherMemo : DescriptorMemo}
    (remembers : Remembers ⟨tree.toFileSystem, config⟩ memo)
    (otherRemembers : Remembers ⟨tree.toFileSystem, config⟩ otherMemo)
    {context other : Path}
    {specifier otherSpecifier : String}
    {origin otherOrigin : Option Path}
    (asks :
      AskAlike ⟨tree.toFileSystem, config⟩ (Path.Recased config.isRoot)
        (fun path other => tree.key path = tree.key other)
        (tree.canonicalize context)
        (tree.canonicalize other) specifier otherSpecifier)
    (owners :
      config.browser = true →
        (owner ⟨tree.toFileSystem, config⟩ (tree.canonicalize context)
            origin).Recased
          config.isRoot
          (owner ⟨tree.toFileSystem, config⟩ (tree.canonicalize other)
            otherOrigin)) :
    (resolve ⟨tree.toFileSystem, config⟩ memo context specifier origin).map
        (·.1.resolution) =
      (resolve ⟨tree.toFileSystem, config⟩ otherMemo other otherSpecifier
          otherOrigin).map
        (·.1.resolution) := by
  have start :
      HonestMemos ⟨tree.toFileSystem, config⟩ ⟨tree.toFileSystem, config⟩
        ⟨memo, .start (some triedLimit)⟩
        ⟨otherMemo, .start (some triedLimit)⟩ :=
    ⟨remembers.honest, otherRemembers.honest⟩
  have surrounds :=
    (answersAlike_recounted keyed insensitive config).searchScope
      overHonest_honestMemos rfl fun browser => (owners browser).ancestors
  have ran := (parallels_recased keyed insensitive config).resolveWithin
    (nestingLimit ⟨tree.toFileSystem, config⟩) asks start surrounds
  rw [← resolve, ← resolve] at ran
  generalize first : resolve _ memo context specifier origin = outcome at ran ⊢
  generalize second : resolve _ otherMemo other otherSpecifier otherOrigin =
    otherOutcome at ran ⊢
  cases ran with
  | none => rfl
  | some both =>
      exact congrArg some
        (resolution_eq_of_alike keyed config first second both.1)

end Requests

/-! ## Requests -/

/-- Without browser fields, paths lead to one file if their targets have one
key. -/
theorem map_resolution_eq_of_key_eq
    {tree : FileTree}
    (config : ResolverConfig)
    (plain : config.browser = false)
    {memo otherMemo : DescriptorMemo}
    (remembers : Remembers ⟨tree.toFileSystem, config⟩ memo)
    (otherRemembers : Remembers ⟨tree.toFileSystem, config⟩ otherMemo)
    {context other : Path}
    {specifier otherSpecifier : String}
    (isPath : Specifier.isPath specifier = true)
    (otherIsPath : Specifier.isPath otherSpecifier = true)
    (targets :
      tree.key ((tree.canonicalize context).child specifier) =
        tree.key ((tree.canonicalize other).child otherSpecifier))
    (origin otherOrigin : Option Path) :
    (resolve ⟨tree.toFileSystem, config⟩ memo context specifier origin).map
        (·.1.resolution) =
      (resolve ⟨tree.toFileSystem, config⟩ otherMemo other otherSpecifier
          otherOrigin).map
        (·.1.resolution) := by
  obtain ⟨result, next, outcome, resolution⟩ :=
    resolve_firstFile? (mainsAgree tree config) plain remembers.honest context
      (Specifier.ne_empty_of_isPath isPath) origin
  obtain ⟨otherResult, otherNext, otherOutcome, otherResolution⟩ :=
    resolve_firstFile? (mainsAgree tree config) plain
      otherRemembers.honest other (Specifier.ne_empty_of_isPath otherIsPath)
        otherOrigin
  rw [← FileTree.key_normalize,
      ← FileTree.key_normalize tree (Path.child _ otherSpecifier)]
    at targets
  have sameFile :=
    firstFile?_pathFiles_eq_of_key_eq config (Path.isNormal_normalize _)
      (Path.isNormal_normalize _) targets
  rw [outcome, otherOutcome, Option.map_some, Option.map_some, resolution,
    otherResolution, moduleFiles, moduleFiles, if_pos isPath,
    if_pos otherIsPath, missReason, missReason, if_pos isPath,
    if_pos otherIsPath]
  exact congrArg (fun file =>
    some (Resolution.ofFinding _ (Option.map Finding.file file))) sameFile

/-- In a tree that ignores the case of letters, two requests that differ in
nothing else have one resolution, whatever each resolver was asked before, if
the names of package roots stand in the same places wherever packages are
looked for: above the context of a bare specifier and, where browser fields
count, above the place of the request and above a directory that is asked for
by its path. What exists as context or origin has them in the same places, for
it is taken in its canonical spelling. -/
theorem resolve_eq_of_recased
    {tree : FileTree}
    (built : tree.Built)
    (insensitive : tree.caseSensitive = false)
    (config : ResolverConfig)
    {memo otherMemo : DescriptorMemo}
    (remembers : Remembers ⟨tree.toFileSystem, config⟩ memo)
    (otherRemembers : Remembers ⟨tree.toFileSystem, config⟩ otherMemo)
    {context other : Path}
    {specifier otherSpecifier : String}
    {origin otherOrigin : Option Path}
    (contexts : context.foldCase = other.foldCase)
    (specifiers : Specifier.Recased specifier otherSpecifier)
    (origins :
      Option.Rel (fun origin other : Path => origin.foldCase = other.foldCase)
        origin otherOrigin)
    (contextRoots :
      Specifier.isPath specifier = false →
        config.SameRoots (tree.canonicalize context) (tree.canonicalize other))
    (ownerRoots :
      config.browser = true →
        config.SameRoots
          (owner ⟨tree.toFileSystem, config⟩ (tree.canonicalize context) origin)
          (owner ⟨tree.toFileSystem, config⟩ (tree.canonicalize other)
            otherOrigin))
    (targetRoots :
      let target := ((tree.canonicalize context).child specifier).normalize
      config.browser = true → Specifier.isPath specifier = true →
        tree.toFileSystem.isDirectory target = true →
          config.SameRoots target
            ((tree.canonicalize other).child otherSpecifier).normalize) :
    (resolve ⟨tree.toFileSystem, config⟩ memo context specifier origin).map
        (·.1.resolution) =
      (resolve ⟨tree.toFileSystem, config⟩ otherMemo other otherSpecifier
          otherOrigin).map
        (·.1.resolution) := by
  have keyed := built.keyed
  have normal := FileTree.isNormal_canonicalize keyed
  have canonical :=
    FileTree.key_canonicalize_eq_of_foldCase_eq insensitive keyed contexts
  have owners := fun browser =>
    recased_owner keyed insensitive config contexts origins (ownerRoots browser)
  by_cases isPath : Specifier.isPath specifier = true
  · obtain ⟨otherIsPath, folded⟩ :
        Specifier.isPath otherSpecifier = true ∧
          (Path.ofString specifier).foldCase =
            (Path.ofString otherSpecifier).foldCase := by
      rcases specifiers with rfl | ⟨_, paths⟩
      · exact ⟨isPath, rfl⟩
      · exact paths
    have children :
        tree.key ((tree.canonicalize context).child specifier) =
          tree.key ((tree.canonicalize other).child otherSpecifier) :=
      (FileTree.key_join_eq_of_key_eq canonical _).trans
        (FileTree.key_join_eq_of_foldCase_eq insensitive _ folded)
    cases browser : config.browser with
    | false =>
        exact map_resolution_eq_of_key_eq config browser remembers
          otherRemembers isPath otherIsPath children origin otherOrigin
    | true =>
        have targets :
            tree.key ((tree.canonicalize context).child specifier).normalize =
              tree.key
                ((tree.canonicalize other).child otherSpecifier).normalize := by
          rw [FileTree.key_normalize, FileTree.key_normalize, children]
        refine map_resolution_eq_of_askAlike keyed insensitive config remembers
          otherRemembers
          (.inr ⟨isPath, otherIsPath, targets, fun isDirectory => ?_⟩) owners
        exact FileTree.recased_of_key_eq insensitive (Path.isNormal_normalize _)
          (Path.isNormal_normalize _) targets
          (targetRoots browser isPath isDirectory)
  · have isBare : Specifier.isPath specifier = false := by simpa using isPath
    have equal : specifier = otherSpecifier :=
      specifiers.resolve_right fun paths => isPath paths.1
    refine map_resolution_eq_of_askAlike keyed insensitive config remembers
      otherRemembers (.inl ⟨equal, ?_⟩) owners
    exact FileTree.recased_of_key_eq insensitive (normal _) (normal _) canonical
      (contextRoots isBare)

/-- A package that replaces a file, in capital letters here and there. -/
def mixedCase : FileTree :=
  ((FileTree.empty.insertFile (.ofString "/P/package.json")
    "\x7b\"browser\":\x7b\"./A.js\":\"./B.js\"\x7d\x7d").insertFile
    (.ofString "/P/b.js") "").ignoringCase

/-- Contexts, specifiers and origins may differ in case. -/
theorem resolve_eq_of_recased_mixedCase :
    (resolve ⟨mixedCase.toFileSystem, .standard⟩ .empty
        (.ofString "/P/src") "../a" (some (.ofString "/p/main.js"))).map
        (·.1.resolution) =
      some (.path (.ofString "/P/b.js")) ∧
    (resolve ⟨mixedCase.toFileSystem, .standard⟩ .empty
        (.ofString "/p/SRC") "../A" (some (.ofString "/P/Main.js"))).map
        (·.1.resolution) =
      some (.path (.ofString "/P/b.js")) := by
  have built : mixedCase.Built :=
    .ignoringCase (.insertFile _ _ (.insertFile _ _ .empty))
  have leads :
      (resolve ⟨mixedCase.toFileSystem, .standard⟩ .empty
          (.ofString "/P/src") "../a" (some (.ofString "/p/main.js"))).map
          (·.1.resolution) =
        some (.path (.ofString "/P/b.js")) := by
    decide +kernel
  have paths : Specifier.Recased "../a" "../A" := by
    refine .inr ?_
    decide +kernel
  have contexts : (Path.ofString "/P/src").foldCase =
      (Path.ofString "/p/SRC").foldCase := by
    decide +kernel
  have origins :
      (Path.ofString "/p/main.js").foldCase =
        (Path.ofString "/P/Main.js").foldCase := by
    decide +kernel
  have same := resolve_eq_of_recased built (by decide +kernel) .standard
    .nothing .nothing contexts
    paths (.some origins) (fun _ => by decide +kernel)
      (fun _ => by decide +kernel)
    fun _ _ _ => by decide +kernel
  exact ⟨leads, same.symm.trans leads⟩

/-- A package root right inside another, in a tree that ignores the case of
letters. -/
def rootInRoot : FileTree :=
  (FileTree.empty.insertFile
    (.ofString "/p/node_modules/node_modules/dep/index.js") "").ignoringCase

/-- The outer package root is no place to look for packages right inside it, but
only where it is spelled as the settings have it. -/
theorem resolve_ne_of_recased_rootInRoot :
    rootInRoot.Built ∧
      rootInRoot.caseSensitive = false ∧
      (Path.ofString "/p/node_modules/x").foldCase =
        (Path.ofString "/p/NODE_MODULES/x").foldCase ∧
      (resolve ⟨rootInRoot.toFileSystem, .standard⟩ .empty
          (.ofString "/p/node_modules/x") "dep" none).map (·.1.resolution) =
        some (.unresolved .packageNotFound) ∧
      (resolve ⟨rootInRoot.toFileSystem, .standard⟩ .empty
          (.ofString "/p/NODE_MODULES/x") "dep" none).map (·.1.resolution) =
        some
          (.path (.ofString "/p/node_modules/node_modules/dep/index.js")) := by
  refine ⟨.ignoringCase (.insertFile _ _ .empty), ?_, ?_, ?_, ?_⟩
  all_goals decide +kernel

end Resolver
end CommonJs
