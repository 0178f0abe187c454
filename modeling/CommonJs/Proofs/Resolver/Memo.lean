import CommonJs.Proofs.FileSystem.Shape
import CommonJs.Proofs.Resolver.Search
import Mathlib.Logic.Relation

/-!
# Honest memos

Whatever a resolver was asked before, what it remembers of a directory is
what the file system says of that directory, in one of its spellings. In a
file tree all spellings of a directory have the same main file, so a search
without browser fields cannot tell a memo from the file system.
-/

namespace CommonJs

/-- Each remembered answer is the one that the file system gives for some
spelling of the directory. -/
def DescriptorMemo.Honest
    (fileSystem : FileSystem)
    (manifest : String)
    (memo : DescriptorMemo) : Prop :=
  ∀ key answer, memo.answers[key]? = some answer →
    ∃ directory : Path,
      directory.components = key ∧
        PackageDescriptor.read? fileSystem manifest directory = answer

namespace DescriptorMemo

variable {fileSystem : FileSystem} {manifest : String} {memo : DescriptorMemo}

theorem honest_empty : Honest fileSystem manifest .empty := by
  intro key answer remembered
  simp [empty] at remembered

/-- What is added to a memo is what the manifest says. -/
theorem Honest.describe
    (honest : memo.Honest fileSystem manifest)
    (directory : Path) :
    (memo.describe fileSystem manifest directory).2.Honest fileSystem
      manifest := by
  unfold DescriptorMemo.describe
  split
  · exact honest
  · intro key answer remembered
    simp only [Std.TreeMap.getElem?_insert, Std.compare_eq_iff_eq] at remembered
    split_ifs at remembered with same
    · exact ⟨directory, same, Option.some.inj remembered⟩
    · exact honest key answer remembered

/-- The answer for a directory is the one that the file system gives for a
path that leads the same way. -/
theorem Honest.describe_answer
    (honest : memo.Honest fileSystem manifest)
    (directory : Path) :
    ∃ spelling : Path,
      spelling.SameWay directory ∧
        (memo.describe fileSystem manifest directory).1 =
          PackageDescriptor.read? fileSystem manifest spelling := by
  unfold DescriptorMemo.describe
  split
  next answer remembered =>
    obtain ⟨spelling, same, isAnswer⟩ := honest _ answer remembered
    exact ⟨spelling, same, isAnswer.symm⟩
  next => exact ⟨directory, rfl, rfl⟩

/-- The first descriptor of several directories is that of one of them. -/
theorem Honest.firstOf_answer
    (honest : memo.Honest fileSystem manifest)
    {directories : List Path}
    {package : PackageDescriptor}
    (answer : (firstOf fileSystem manifest directories memo).1 = some package) :
    ∃ directory ∈ directories, ∃ spelling : Path,
      spelling.SameWay directory ∧
        PackageDescriptor.read? fileSystem manifest spelling =
          some package := by
  induction directories generalizing memo with
  | nil => cases answer
  | cons directory others inductionHypothesis =>
      obtain ⟨spelling, same, first⟩ := honest.describe_answer directory
      have honestNext := honest.describe directory
      rw [firstOf] at answer
      generalize memo.describe fileSystem manifest directory = answered at *
      obtain ⟨_ | found, next⟩ := answered
      · obtain ⟨other, present, described⟩ :=
          inductionHypothesis honestNext answer
        exact ⟨other, List.mem_cons_of_mem _ present, described⟩
      · exact ⟨directory, List.mem_cons_self, spelling, same,
          first.symm.trans answer⟩

end DescriptorMemo

namespace Resolver

/-- The memos that a resolver may have come by: each request starts from what
the requests before it left. -/
inductive Remembers (resolver : Resolver) : DescriptorMemo → Prop
  | nothing : Remembers resolver .empty
  | resolve {memo next : DescriptorMemo} {result : ResolveResult}
      (context : Path) (specifier : String) (origin : Option Path) :
      Remembers resolver memo →
      resolver.resolve memo context specifier origin = some (result, next) →
      Remembers resolver next
  | descriptorIn {memo : DescriptorMemo} (directory : Path) :
      Remembers resolver memo →
      Remembers resolver (resolver.descriptorIn memo directory).2
  | nearestPackage {memo : DescriptorMemo} (path : Path) :
      Remembers resolver memo →
      Remembers resolver (resolver.nearestPackage memo path).2

/-- One request to a resolver, from the memo before it to the memo after
it. -/
inductive Asks (resolver : Resolver) : DescriptorMemo → DescriptorMemo → Prop
  | resolve {memo next : DescriptorMemo} {result : ResolveResult}
      (context : Path) (specifier : String) (origin : Option Path) :
      resolver.resolve memo context specifier origin = some (result, next) →
      Asks resolver memo next
  | descriptorIn (memo : DescriptorMemo) (directory : Path) :
      Asks resolver memo (resolver.descriptorIn memo directory).2
  | nearestPackage (memo : DescriptorMemo) (path : Path) :
      Asks resolver memo (resolver.nearestPackage memo path).2

/-- What questions for descriptors keep is kept by any number of requests. -/
theorem Tracks.requests
    {resolver : Resolver}
    {keeps : DescriptorMemo → Prop}
    {wanted : Finding → Prop}
    (tracks : resolver.Tracks keeps wanted)
    {memo later : DescriptorMemo}
    (asks : Relation.ReflTransGen resolver.Asks memo later)
    (kept : keeps memo) : keeps later := by
  induction asks with
  | refl => exact kept
  | tail _ request inductionHypothesis =>
      cases request with
      | resolve context specifier origin outcome =>
          exact (tracks.resolve inductionHypothesis outcome).1
      | descriptorIn directory => exact tracks.describe _ _ inductionHypothesis
      | nearestPackage path => exact tracks.firstOf _ inductionHypothesis

/-- The memos of a resolver are those that requests lead to from the empty
one. -/
theorem remembers_iff_requests
    {resolver : Resolver}
    (memo : DescriptorMemo) :
    resolver.Remembers memo ↔
      Relation.ReflTransGen resolver.Asks .empty memo := by
  constructor
  · intro remembers
    induction remembers with
    | nothing => exact .refl
    | resolve context specifier origin _ outcome asked =>
        exact asked.tail (.resolve context specifier origin outcome)
    | descriptorIn directory _ asked =>
        exact asked.tail (.descriptorIn _ directory)
    | nearestPackage path _ asked => exact asked.tail (.nearestPackage _ path)
  · intro asked
    induction asked with
    | refl => exact .nothing
    | tail _ request remembers =>
        cases request with
        | resolve context specifier origin outcome =>
            exact remembers.resolve context specifier origin outcome
        | descriptorIn directory => exact remembers.descriptorIn directory
        | nearestPackage path => exact remembers.nearestPackage path

/-- The package around the place of a request is one whose manifest there is,
and it is asked for only if browser fields count. -/
theorem scopeOf_eq_some
    {resolver : Resolver}
    {memo : DescriptorMemo}
    (honest : memo.Honest resolver.fileSystem resolver.config.manifest)
    {context : Path}
    {origin : Option Path}
    {package : PackageDescriptor}
    (answer : (resolver.scopeOf memo context origin).1 = some package) :
    resolver.config.browser = true ∧ ∃ directory,
      PackageDescriptor.read? resolver.fileSystem resolver.config.manifest
          directory =
        some package := by
  unfold scopeOf at answer
  dsimp only at answer
  split at answer
  next browser =>
    obtain ⟨_, _, spelling, _, described⟩ := honest.firstOf_answer answer
    exact ⟨browser, spelling, described⟩
  next => cases answer

/-- Searches keep a memo honest. -/
theorem tracks_honest (resolver : Resolver) :
    resolver.Tracks (·.Honest resolver.fileSystem resolver.config.manifest)
      fun _ => True where
  describe _ directory honest := honest.describe directory
  file _ _ := trivial
  stub := trivial
  missingReplacement := trivial

/-- By induction on the requests, a memo says what the manifests say. -/
theorem Remembers.honest
    {resolver : Resolver}
    {memo : DescriptorMemo}
    (remembers : resolver.Remembers memo) :
    memo.Honest resolver.fileSystem resolver.config.manifest :=
  resolver.tracks_honest.requests ((remembers_iff_requests memo).mp remembers)
    DescriptorMemo.honest_empty

end Resolver

/-! ## The main file of a directory -/

namespace Resolver

/-- The main file that the manifest in a directory names. -/
def mainOf (resolver : Resolver) (directory : Path) : Option String :=
  (PackageDescriptor.read? resolver.fileSystem resolver.config.manifest
    directory).bind (·.main)

/-- The main file is looked up in the manifest of the directory. -/
theorem mainOf_eq_join (resolver : Resolver) (directory : Path) :
    resolver.mainOf directory =
      ((PackageDescriptor.read? resolver.fileSystem resolver.config.manifest
        directory).map
        (·.main)).join := by
  unfold mainOf
  cases PackageDescriptor.read? resolver.fileSystem resolver.config.manifest
    directory <;> rfl

/-- The directories of a tree that are compared in one spelling have one main
file. -/
theorem mainOf_eq_of_key_eq
    {tree : FileTree}
    {first second : Path}
    (same : tree.key first = tree.key second)
    (config : ResolverConfig) :
    mainOf ⟨tree.toFileSystem, config⟩ first =
      mainOf ⟨tree.toFileSystem, config⟩ second := by
  rw [mainOf_eq_join, mainOf_eq_join, PackageDescriptor.map_main_read?,
    PackageDescriptor.map_main_read?, FileTree.toOption_read_child same]

/-- All spellings of a directory have one main file. -/
def MainsAgree (resolver : Resolver) : Prop :=
  ∀ first second : Path, first.SameWay second →
    resolver.mainOf first = resolver.mainOf second

theorem mainsAgree (tree : FileTree) (config : ResolverConfig) :
    MainsAgree ⟨tree.toFileSystem, config⟩ :=
  fun _ _ same =>
    mainOf_eq_of_key_eq (FileTree.key_eq_of_sameWay same tree) config

/-- Where the spellings of a directory agree, an honest memo names its main
file. -/
theorem MainsAgree.main_describe
    {resolver : Resolver}
    {memo : DescriptorMemo}
    (agree : resolver.MainsAgree)
    (honest : memo.Honest resolver.fileSystem resolver.config.manifest)
    (directory : Path) :
    (memo.describe resolver.fileSystem resolver.config.manifest
        directory).1.bind (·.main) =
      resolver.mainOf directory := by
  obtain ⟨spelling, same, isAnswer⟩ := honest.describe_answer directory
  rw [isAnswer, ← agree spelling directory same]
  rfl

end Resolver
end CommonJs
