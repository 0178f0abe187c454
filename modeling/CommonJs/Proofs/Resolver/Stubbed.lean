import CommonJs.Proofs.Package.Entries
import CommonJs.Proofs.Path.Below
import CommonJs.Proofs.Resolver.Descent
import CommonJs.Proofs.Resolver.Interchangeable

/-!
# Files that are replaced by nothing

Whether a file entry applies to a candidate is a matter of keys alone, and
keys do not depend on what stands in a tree. So in two trees with the same
manifests the same candidates are replaced, and a candidate that is replaced
by nothing ends the search for it, be there a file or not.
-/

namespace CommonJs

/-! ## Trees with the same manifests -/

/-- Trees that compare paths alike have the same keys. -/
theorem FileTree.key_eq_of_caseSensitive_eq
    {tree other : FileTree}
    (sameCase : tree.caseSensitive = other.caseSensitive) :
    tree.key = other.key := by
  funext path
  rw [key, key, sameCase]

namespace BrowserMap

variable {tree other : FileTree} {directory otherDirectory : Path}

/-- The target that a member names does not depend on what stands in the
tree. -/
theorem map_fileMember?_eq
    (sameCase : tree.caseSensitive = other.caseSensitive)
    (sameKey : tree.key directory = tree.key otherDirectory)
    (key : List Component)
    (member : String × Json) :
    (fileMember? tree directory key member).map (·.2) =
      (fileMember? other otherDirectory key member).map (·.2) := by
  have sameChild :
      tree.key (directory.child member.1) =
        other.key (otherDirectory.child member.1) := by
    rw [← FileTree.key_eq_of_caseSensitive_eq sameCase]
    exact FileTree.key_join_eq_of_key_eq sameKey _
  unfold fileMember?
  rw [sameChild]
  split_ifs
  · cases BrowserTarget.ofJson? member.2 <;> rfl
  · rfl

/-- A browser field replaces the same files in both trees. -/
theorem file?_ofJson_eq
    (keyed : tree.Keyed)
    (otherKeyed : other.Keyed)
    (sameCase : tree.caseSensitive = other.caseSensitive)
    (sameKey : tree.key directory = tree.key otherDirectory)
    (field : Option Json)
    (path : Path) :
    (ofJson tree.toFileSystem directory field).file? (tree.canonicalize path) =
      (ofJson other.toFileSystem otherDirectory field).file?
        (other.canonicalize path) := by
  rw [file?_canonicalize keyed (caseSensitive_ofJson ..),
    file?_canonicalize otherKeyed (caseSensitive_ofJson ..)]
  match field with
  | some (.object members) =>
      rw [files_ofJson keyed, files_ofJson otherKeyed, List.map_findSome?,
        List.map_findSome?, FileTree.key_eq_of_caseSensitive_eq sameCase]
      congr 1
      funext member
      exact map_fileMember?_eq sameCase sameKey _ member
  | none => rfl
  | some (.string _) => rfl
  | some .null => rfl
  | some (.bool _) => rfl
  | some (.number _) => rfl
  | some (.array _) => rfl

end BrowserMap

/-- Descriptors in two trees that replace the same files by the same
targets. -/
def PackageDescriptor.SameFiles
    (tree other : FileTree)
    (descriptor otherDescriptor : PackageDescriptor) : Prop :=
  ∀ path : Path,
    descriptor.browser.file? (tree.canonicalize path) =
      otherDescriptor.browser.file? (other.canonicalize path)

/-- Where the manifests have one text, they have descriptors that replace the
same files. -/
theorem PackageDescriptor.sameFiles_read?
    {tree other : FileTree}
    (keyed : tree.Keyed)
    (otherKeyed : other.Keyed)
    (sameCase : tree.caseSensitive = other.caseSensitive)
    {manifest : String}
    (texts : ∀ directory : Path,
      (tree.read (directory.child manifest)).toOption =
        (other.read (directory.child manifest)).toOption)
    {directory otherDirectory : Path}
    (sameKey : tree.key directory = tree.key otherDirectory) :
    Option.Rel (SameFiles tree other)
      (read? tree.toFileSystem manifest directory)
      (read? other.toFileSystem manifest otherDirectory) := by
  rw [read?_toFileSystem, read?_toFileSystem,
    FileTree.toOption_read_child sameKey, texts]
  cases (other.read (otherDirectory.child manifest)).toOption with
  | none => exact .none
  | some text =>
      rw [Option.bind_some, Option.bind_some]
      cases Json.ofText? text with
      | none => exact .none
      | some json =>
          cases json with
          | object members =>
              exact .some
                (BrowserMap.file?_ofJson_eq keyed otherKeyed sameCase sameKey _)
          | _ => exact .none

namespace Resolver

/-! ## The package around two requests -/

section Around

variable {tree other : FileTree} {config : ResolverConfig}

/-- The package around a request to the second resolver replaces the files
that the package around the same place in the first tree does, whatever both
were asked before. -/
theorem sameFiles_scopeOf
    (keyed : tree.Keyed)
    (otherKeyed : other.Keyed)
    (sameCase : tree.caseSensitive = other.caseSensitive)
    (browser : config.browser = true)
    (texts : ∀ directory : Path,
      (tree.read (directory.child config.manifest)).toOption =
        (other.read (directory.child config.manifest)).toOption)
    {memo : DescriptorMemo}
    (honest : memo.Honest other.toFileSystem config.manifest)
    {context : Path}
    {origin : Option Path}
    (contexts : tree.canonicalize context = other.canonicalize context)
    (origins : ∀ place ∈ origin,
      tree.canonicalize place = other.canonicalize place) :
    Option.Rel (PackageDescriptor.SameFiles tree other)
      (nearestPackage ⟨tree.toFileSystem, config⟩ .empty
        (origin.getD context)).1
      (scopeOf ⟨other.toFileSystem, config⟩ memo (other.canonicalize context)
        origin).1 := by
  have answers : AnswersAlike ⟨tree.toFileSystem, config⟩
      ⟨other.toFileSystem, config⟩ Eq
      (Option.Rel (PackageDescriptor.SameFiles tree other)) :=
    answersAlike_of_read?
        fun directory _ spelling otherSpelling same spells otherSpells => by
      subst same
      exact PackageDescriptor.sameFiles_read? keyed otherKeyed sameCase texts
        (FileTree.key_eq_of_sameWay (spells.trans otherSpells.symm) tree)
  have owners :
      owner ⟨tree.toFileSystem, config⟩ (tree.canonicalize context) origin =
        owner ⟨other.toFileSystem, config⟩ (other.canonicalize context)
          origin := by
    cases origin with
    | none => exact contexts
    | some place => exact origins place rfl
  rw [nearestPackage_eq_firstOf, scopeOf_eq, if_pos browser]
  refine answers.firstOf DescriptorMemo.honest_empty honest ?_
  rw [List.forall₂_eq_eq_eq]
  exact congrArg Path.ancestors owners

end Around

/-! ## A stub ends the search -/

section Stub

variable {resolver : Resolver} {scope : Option PackageDescriptor}
  {replace : Replace}

/-- A candidate that is not replaced and no file is passed by. -/
theorem searchCandidate_passed
    {passed : Path}
    (unreplaced : resolver.fileReplacement? scope passed = none)
    (noFile : resolver.fileSystem.isFile passed = false)
    (state : SearchState) :
    resolver.searchCandidate replace scope passed state =
      some (none, { state with trail := state.trail.add passed }) := by
  rw [searchCandidate, unreplaced]
  dsimp only
  rw [noFile]
  rfl

/-- The search through some candidates ends with the first that is replaced,
and with the request for nothing if that is what the entry says. The
candidates before it only get onto the trail. -/
theorem searchCandidates_stub
    {earlier later : List Path}
    {candidate : Path}
    {package : PackageDescriptor}
    (passes : ∀ passed ∈ earlier,
      resolver.fileReplacement? scope passed = none ∧
        resolver.fileSystem.isFile passed = false)
    (stubbed : resolver.fileReplacement? scope candidate =
      some (package, .stub))
    (stubs : replace package .stub .file = pure .stub)
    (state : SearchState) :
    ∃ after,
      resolver.searchCandidates replace scope
          (earlier ++ candidate :: later) state =
        some (some .stub, after) := by
  unfold searchCandidates
  induction earlier generalizing state with
  | nil =>
      refine ⟨state, ?_⟩
      rw [List.nil_append, List.map_cons, searchCandidate, stubbed]
      dsimp only
      rw [firstFinding_replaced, stubs]
      rfl
  | cons passed others inductionHypothesis =>
      obtain ⟨unreplaced, noFile⟩ := passes passed List.mem_cons_self
      rw [List.cons_append, List.map_cons, firstFinding, Search.bind_apply,
        searchCandidate_passed unreplaced noFile]
      exact inductionHypothesis
        (fun other present => passes other (List.mem_cons_of_mem _ present)) _

/-- A request for a path asks for nothing if that is what the first of its
candidates is replaced by that is replaced or a file. -/
theorem resolve_stub_of_candidates
    (memo : DescriptorMemo)
    {context : Path}
    {specifier : String}
    {origin : Option Path}
    (isPath : Specifier.isPath specifier = true)
    {package : PackageDescriptor}
    (around :
      (resolver.scopeOf memo (resolver.fileSystem.canonicalize context)
        origin).1 = some package)
    {earlier later : List Path}
    {candidate : Path}
    (candidates :
      resolver.fileCandidates
          ((resolver.fileSystem.canonicalize context).child
            specifier).normalize =
        earlier ++ candidate :: later)
    (passes : ∀ passed ∈ earlier,
      package.browser.file? (resolver.fileSystem.canonicalize passed) = none ∧
        resolver.fileSystem.isFile passed = false)
    (stubbed :
      package.browser.file? (resolver.fileSystem.canonicalize candidate) =
        some .stub) :
    ∃ result next,
      resolver.resolve memo context specifier origin = some (result, next) ∧
        result.resolution = .stub := by
  have entry (place : Path) :
      resolver.fileReplacement? (some package) place =
        (package.browser.file? (resolver.fileSystem.canonicalize place)).map
          (package, ·) :=
    fileReplacement?_eq resolver (some package) place
  have stubs :
      resolver.replaceWithin resolver.nestingLimit package .stub .file =
        pure .stub := by
    cases resolver.nestingLimit <;> rfl
  obtain ⟨after, found⟩ : ∃ after,
      resolver.searchCandidates (resolver.replaceWithin resolver.nestingLimit)
          (some package) (earlier ++ candidate :: later)
          ⟨(resolver.scopeOf memo (resolver.fileSystem.canonicalize context)
              origin).2,
            .start (some triedLimit)⟩ =
        some (some .stub, after) := by
    refine searchCandidates_stub (fun passed present => ?_) ?_ stubs _
    · rw [entry, (passes passed present).1]
      exact ⟨rfl, (passes passed present).2⟩
    · rw [entry, stubbed]
      rfl
  refine ⟨⟨.stub, after.trail.places⟩, after.memo, ?_, rfl⟩
  rw [resolve, resolveWithin_eq _ _ _ _ _ (Specifier.ne_empty_of_isPath isPath),
    Search.bind_apply, searchScope, Option.bind_some]
  dsimp only
  rw [around, search, if_pos isPath, searchPath, firstFinding,
    Search.bind_apply, candidates, found]
  rfl

end Stub

/-! ## One answer from two trees -/

/-- A request to the second resolver asks for nothing if the package around
the same place in the first tree says so. -/
theorem resolve_stub_of_sameFiles
    {tree other : FileTree}
    {config : ResolverConfig}
    {memo : DescriptorMemo}
    {context : Path}
    {specifier : String}
    {origin : Option Path}
    {package : PackageDescriptor}
    (surrounds :
      Option.Rel (PackageDescriptor.SameFiles tree other) (some package)
        (scopeOf ⟨other.toFileSystem, config⟩ memo (other.canonicalize context)
          origin).1)
    (isPath : Specifier.isPath specifier = true)
    {earlier later : List Path}
    {candidate : Path}
    (candidates :
      fileCandidates ⟨other.toFileSystem, config⟩
          ((other.canonicalize context).child specifier).normalize =
        earlier ++ candidate :: later)
    (passes : ∀ passed ∈ earlier,
      package.browser.file? (tree.canonicalize passed) = none ∧
        other.toFileSystem.isFile passed = false)
    (stubbed : package.browser.file? (tree.canonicalize candidate) =
      some .stub) :
    ∃ result next,
      resolve ⟨other.toFileSystem, config⟩ memo context specifier origin =
          some (result, next) ∧
        result.resolution = .stub := by
  generalize around :
    (scopeOf ⟨other.toFileSystem, config⟩ memo (other.canonicalize context)
        origin).1 = scope
      at surrounds
  cases surrounds with
  | @some _ twin sameFiles =>
      refine resolve_stub_of_candidates memo isPath around candidates
        (fun passed present => ?_) ?_
      · obtain ⟨unmapped, noFile⟩ := passes passed present
        exact ⟨(sameFiles passed).symm.trans unmapped, noFile⟩
      · exact (sameFiles candidate).symm.trans stubbed

/-- Let two trees compare paths alike and have manifests of the same texts in
the same directories. If the package around a request for a path replaces a
candidate by nothing, then the request asks for nothing in both trees, as soon
as no candidate before it is replaced or a file in one of them. Whatever else
stands in the trees does not count, and neither does what was asked before. -/
theorem resolve_stub_of_same_manifests
    {tree other : FileTree}
    (built : tree.Built)
    (otherBuilt : other.Built)
    (sameCase : tree.caseSensitive = other.caseSensitive)
    {config : ResolverConfig}
    (browser : config.browser = true)
    (texts : ∀ directory : Path,
      (tree.read (directory.child config.manifest)).toOption =
        (other.read (directory.child config.manifest)).toOption)
    {memo otherMemo : DescriptorMemo}
    (remembers : Remembers ⟨tree.toFileSystem, config⟩ memo)
    (otherRemembers : Remembers ⟨other.toFileSystem, config⟩ otherMemo)
    {context : Path}
    {origin : Option Path}
    (contexts : tree.canonicalize context = other.canonicalize context)
    (origins : ∀ place ∈ origin,
      tree.canonicalize place = other.canonicalize place)
    {specifier : String}
    (isPath : Specifier.isPath specifier = true)
    {package : PackageDescriptor}
    (around :
      (nearestPackage ⟨tree.toFileSystem, config⟩ .empty
        (origin.getD context)).1 = some package)
    {earlier later : List Path}
    {candidate : Path}
    (candidates :
      fileCandidates ⟨tree.toFileSystem, config⟩
          ((tree.canonicalize context).child specifier).normalize =
        earlier ++ candidate :: later)
    (unmapped : ∀ passed ∈ earlier,
      package.browser.file? (tree.canonicalize passed) = none)
    (noFile : ∀ passed ∈ earlier,
      tree.toFileSystem.isFile passed = false ∧
        other.toFileSystem.isFile passed = false)
    (stubbed : package.browser.file? (tree.canonicalize candidate) =
      some .stub) :
    (∃ result next,
      resolve ⟨tree.toFileSystem, config⟩ memo context specifier origin =
          some (result, next) ∧
        result.resolution = .stub) ∧
    ∃ result next,
      resolve ⟨other.toFileSystem, config⟩ otherMemo context specifier origin =
          some (result, next) ∧
        result.resolution = .stub := by
  have surrounds :
      Option.Rel (PackageDescriptor.SameFiles tree tree)
        (nearestPackage ⟨tree.toFileSystem, config⟩ .empty
          (origin.getD context)).1
        (scopeOf ⟨tree.toFileSystem, config⟩ memo (tree.canonicalize context)
          origin).1 :=
    sameFiles_scopeOf built.keyed built.keyed rfl browser (fun _ => rfl)
      remembers.honest rfl
      fun _ _ => rfl
  have otherSurrounds :=
    sameFiles_scopeOf built.keyed otherBuilt.keyed sameCase browser texts
      otherRemembers.honest contexts origins
  rw [around] at surrounds otherSurrounds
  have otherCandidates :
      fileCandidates ⟨other.toFileSystem, config⟩
          ((other.canonicalize context).child specifier).normalize =
        earlier ++ candidate :: later := by
    rw [← contexts]
    exact candidates
  exact
    ⟨resolve_stub_of_sameFiles surrounds isPath candidates
      (fun passed present =>
        ⟨unmapped passed present, (noFile passed present).1⟩) stubbed,
    resolve_stub_of_sameFiles otherSurrounds isPath otherCandidates
      (fun passed present =>
        ⟨unmapped passed present, (noFile passed present).2⟩) stubbed⟩

/-- A file of another name than the manifests have leaves all manifests as
they are. -/
theorem text_insertFile_of_fileName_ne
    {tree : FileTree}
    (sensitive : tree.caseSensitive = true)
    {path : Path}
    {manifest : String}
    {chars : List Char}
    (relative : (Path.ofString manifest).isAbsolute = false)
    (step : (Path.ofString manifest).steps = [.name chars])
    (otherName : path.normalize.fileName ≠ some chars)
    (text : String)
    (directory : Path) :
    ((tree.insertFile path text).read (directory.child manifest)).toOption =
      (tree.read (directory.child manifest)).toOption := by
  rw [FileTree.text_insertFile, if_neg]
  intro sameKey
  have sameName : path.normalize.fileName =
      (directory.child manifest).normalize.fileName := by
    rw [FileTree.key, FileTree.key, FileTree.comparable, FileTree.comparable,
      sensitive, if_pos rfl, if_pos rfl] at sameKey
    rw [Path.fileName, Path.fileName, sameKey]
  rw [sameName, Path.fileName_normalize_child directory relative step]
    at otherName
  exact otherName rfl

/-- A package that replaces one of its files by nothing. -/
def stubbingPackage : FileTree :=
  FileTree.empty.insertFile (.ofString "/p/package.json")
    "\x7b\"browser\":\x7b\"./x.js\":false\x7d\x7d"

/-- The package with the file that is replaced. -/
def stubbedFile : FileTree :=
  stubbingPackage.insertFile (.ofString "/p/x.js") ""

/-- The package with a directory of the name without the extension. -/
def stubbedBesideDirectory : FileTree :=
  stubbingPackage.insertFile (.ofString "/p/x/index.js") ""

theorem texts_stubbedFile (directory : Path) :
    (stubbedFile.read (directory.child "package.json")).toOption =
      (stubbedBesideDirectory.read
        (directory.child "package.json")).toOption := by
  have step : (Path.ofString "package.json").steps =
      [.name "package.json".toList] := by
    decide +kernel
  rw [stubbedFile, stubbedBesideDirectory,
    text_insertFile_of_fileName_ne rfl (by decide +kernel) step
      (by decide +kernel),
    text_insertFile_of_fileName_ne rfl (by decide +kernel) step
      (by decide +kernel)]

/-- Whether the file is there or a directory, the request is stubbed. -/
theorem resolve_stub_of_same_manifests_stubbedFile :
    (∃ result next,
      resolve ⟨stubbedFile.toFileSystem, .standard⟩ .empty (.ofString "/p")
            "./x" none =
          some (result, next) ∧
        result.resolution = .stub) ∧
    ∃ result next,
      resolve ⟨stubbedBesideDirectory.toFileSystem, .standard⟩ .empty
          (.ofString "/p") "./x" none = some (result, next) ∧
        result.resolution = .stub := by
  have built : stubbedFile.Built := .insertFile _ _ (.insertFile _ _ .empty)
  have otherBuilt : stubbedBesideDirectory.Built :=
    .insertFile _ _ (.insertFile _ _ .empty)
  have contexts :
      stubbedFile.canonicalize (.ofString "/p") =
        stubbedBesideDirectory.canonicalize (.ofString "/p") := by
    decide +kernel
  have entries :
      (nearestPackage ⟨stubbedFile.toFileSystem, .standard⟩ .empty
          (.ofString "/p")).1.map
        (fun package =>
          (package.browser.file? (stubbedFile.canonicalize (.ofString "/p/x")),
            package.browser.file?
              (stubbedFile.canonicalize (.ofString "/p/x.js")))) =
        some (none, some .stub) := by
    decide +kernel
  obtain ⟨package, around, found⟩ := Option.map_eq_some_iff.mp entries
  obtain ⟨unmapped, stubbed⟩ := Prod.mk.inj found
  have candidates :
      fileCandidates ⟨stubbedFile.toFileSystem, .standard⟩
          ((stubbedFile.canonicalize (.ofString "/p")).child "./x").normalize =
        [.ofString "/p/x"] ++ .ofString "/p/x.js" ::
          [.ofString "/p/x.json"] := by
    decide +kernel
  have noFile : ∀ passed ∈ [Path.ofString "/p/x"],
      stubbedFile.toFileSystem.isFile passed = false ∧
        stubbedBesideDirectory.toFileSystem.isFile passed = false := by
    decide +kernel
  have sameCase : stubbedFile.caseSensitive =
      stubbedBesideDirectory.caseSensitive := by
    decide +kernel
  have browser : ResolverConfig.standard.browser = true := rfl
  exact resolve_stub_of_same_manifests built otherBuilt sameCase browser
    texts_stubbedFile .nothing .nothing contexts (by simp) (by decide +kernel)
      around candidates
    (List.forall_mem_singleton.mpr unmapped) noFile stubbed

end Resolver
end CommonJs
