import CommonJs.Proofs.Package.Spelling
import CommonJs.Proofs.Resolver.History
import CommonJs.Proofs.Resolver.Simulation

/-!
# Requests do not depend on earlier ones

A memo may answer for a directory in the spelling of an earlier request. But
searches use the directory of a descriptor only to go on from there, and
compare paths only by where they lead. So a resolver that remembers and one
that was never asked anything run in step: both find the same places, in
spellings that lead the same way.
-/

namespace CommonJs

/-- Results that cannot be told apart when paths are compared by their
components. -/
structure ResolveResult.Alike (result other : ResolveResult) : Prop where
  /-- The same was found. -/
  resolution : Resolution.Alike Path.SameWay result.resolution other.resolution
  /-- The same places were tried, in the same order. -/
  tried : List.Forall₂ Path.SameWay result.tried other.tried

namespace Resolver

open Search (InStep)

/-! ## Scopes that are alike -/

section Scopes

variable {resolver : Resolver} {scope otherScope : Option PackageDescriptor}

/-- Descriptors that differ in spelling alone name the same replacements. -/
theorem interchangeable_alike
    (uniform : resolver.fileSystem.Uniform) :
    Interchangeable resolver resolver Path.SameWay Path.SameWay
      PackageDescriptor.Alike where
  browser := rfl
  directory alike := alike.directory
  main alike := alike.main
  mainEntry alike := alike.browser.main
  module specifier alike := congrArg (·[specifier]?) alike.browser.modules
  file alike same := alike.browser.file? (uniform.canonicalize same)

theorem sameScope_of_alike
    (uniform : resolver.fileSystem.Uniform)
    (alike : Option.Rel PackageDescriptor.Alike scope otherScope) :
    SameScope Path.SameWay resolver resolver scope otherScope where
  file same := (interchangeable_alike uniform).fileReplacement? alike same
  module specifier :=
    (interchangeable_alike uniform).moduleReplacement? alike specifier

end Scopes

/-! ## Requests with and without a history -/

section Requests

variable {resolver : Resolver} (uniform : resolver.fileSystem.Uniform)

include uniform

/-- Honest memos answer alike for paths that lead the same way. -/
theorem answersAlike_sameWay :
    AnswersAlike resolver resolver Path.SameWay
      (Option.Rel PackageDescriptor.Alike) :=
  answersAlike_of_read? fun _ _ _ _ same spells otherSpells =>
    PackageDescriptor.alike_read? uniform
      (spells.trans (same.trans otherSpells.symm)) _

/-- A resolver does the same for all spellings of a path. -/
theorem mirrors_sameWay :
    Mirrors resolver resolver Path.SameWay (Option.Rel PackageDescriptor.Alike)
      (HonestStates resolver resolver Path.SameWay) where
  paths := Path.respected_sameWay
  noScope := .none
  scope alike := sameScope_of_alike uniform alike
  extensions := rfl
  packageRoots := rfl
  isFile same := uniform.isFile same
  isDirectory same := uniform.isDirectory same
  canonicalize same := uniform.canonicalize same
  tryPlace same := HonestStates.tryPlace same
  describe same :=
    AnswersAlike.describe
      (fun _ _ _ _ same honest otherHonest =>
        (interchangeable_alike uniform).sameOwn
          (answersAlike_sameWay uniform _ _ _ _ same honest otherHonest))
      overHonest_honestStates same
  scopeInside same :=
    (answersAlike_sameWay uniform).scopeInside overHonest_honestStates rfl same

/-- The package around a context is found alike. -/
theorem inStep_searchScope (context : Path) (origin : Option Path) :
    InStep (HonestStates resolver resolver Path.SameWay)
      (Option.Rel PackageDescriptor.Alike)
      (resolver.searchScope context origin)
      (resolver.searchScope context origin) :=
  (answersAlike_sameWay uniform).searchScope overHonest_honestStates rfl
    fun _ => Path.SameWay.ancestors rfl

theorem alike_describe
    {memo otherMemo : DescriptorMemo}
    (honest : memo.Honest resolver.fileSystem resolver.config.manifest)
    (otherHonest : otherMemo.Honest resolver.fileSystem
      resolver.config.manifest)
    {directory other : Path}
    (same : directory.SameWay other) :
    Option.Rel PackageDescriptor.Alike (resolver.descriptorIn memo directory).1
      (resolver.descriptorIn otherMemo other).1 :=
  answersAlike_sameWay uniform _ _ _ _ same honest otherHonest

/-- The first package of a list is found alike. -/
theorem alike_firstOf
    {memo otherMemo : DescriptorMemo}
    (honest : memo.Honest resolver.fileSystem resolver.config.manifest)
    (otherHonest : otherMemo.Honest resolver.fileSystem
      resolver.config.manifest)
    {directories others : List Path}
    (same : List.Forall₂ Path.SameWay directories others) :
    Option.Rel PackageDescriptor.Alike
      (DescriptorMemo.firstOf resolver.fileSystem resolver.config.manifest
        directories memo).1
      (DescriptorMemo.firstOf resolver.fileSystem
        resolver.config.manifest others
        otherMemo).1 :=
  (answersAlike_sameWay uniform).firstOf honest otherHonest same

/-- Any two honest memos lead to the same answer. -/
theorem alike_resolve
    {memo otherMemo : DescriptorMemo}
    (honest : memo.Honest resolver.fileSystem resolver.config.manifest)
    (otherHonest : otherMemo.Honest resolver.fileSystem
      resolver.config.manifest)
    (context : Path)
    (specifier : String)
    (origin : Option Path) :
    Option.Rel (fun outcome other => outcome.1.Alike other.1)
      (resolver.resolve memo context specifier origin)
      (resolver.resolve otherMemo context specifier origin) := by
  have start : HonestStates resolver resolver Path.SameWay
      ⟨memo, .start (some triedLimit)⟩ ⟨otherMemo, .start (some triedLimit)⟩ :=
    ⟨honest, otherHonest, .start _ _⟩
  have contexts :
      (resolver.fileSystem.canonicalize context).SameWay
        (resolver.fileSystem.canonicalize context) := rfl
  have ran := (mirrors_sameWay uniform).resolveWithin resolver.nestingLimit
    specifier contexts start (inStep_searchScope uniform _ origin)
  refine optionRel_mono ran fun outcome other both => ?_
  obtain ⟨resolution, trail, otherTrail, tried, otherTried, states⟩ := both
  refine ⟨resolution, ?_⟩
  rw [tried, otherTried]
  exact states.trail.places

end Requests

/-- Each request gets the answer that a resolver without history gives, up to
the spelling of paths. -/
structure Forgetful (resolver : Resolver) (memo : DescriptorMemo) : Prop where
  /-- Requests for modules. -/
  resolve (context : Path) (specifier : String) (origin : Option Path) :
    Option.Rel (fun outcome fresh => outcome.1.Alike fresh.1)
      (resolver.resolve memo context specifier origin)
      (resolver.resolve .empty context specifier origin)
  /-- Requests for the manifest of a directory. -/
  descriptorIn (directory : Path) :
    Option.Rel PackageDescriptor.Alike (resolver.descriptorIn memo directory).1
      (resolver.descriptorIn .empty directory).1
  /-- Requests for the package around a path. -/
  nearestPackage (path : Path) :
    Option.Rel PackageDescriptor.Alike (resolver.nearestPackage memo path).1
      (resolver.nearestPackage .empty path).1

/-- Whatever a resolver was asked before, each request gets the answer that it
would get from a resolver without history: the file system may be any that
does not tell apart the spellings of one way, such as a tree in memory. The
memo has one answer for each directory that was asked for, however it was
spelled, looked for the manifest of each once, and keeps its answers whatever
is asked later. -/
theorem memo_unobservable_and_kept :
    (∀ tree : FileTree, tree.toFileSystem.Uniform) ∧
      ∀ (resolver : Resolver) (memo : DescriptorMemo),
        resolver.fileSystem.Uniform → resolver.Remembers memo →
          resolver.Forgetful memo ∧
            (∀ directory : Path,
              directory.components ∈ memo.answers ↔
                ∃ asked ∈ memo.asked, asked.SameWay directory) ∧
            memo.size = (memo.asked.map Path.components).dedup.length ∧
            memo.looked.Pairwise (fun directory other =>
              ¬ directory.SameWay other) ∧
            ∀ later, Relation.ReflTransGen resolver.Asks memo later →
              later.Extends memo := by
  refine ⟨FileTree.uniform, fun resolver memo uniform remembers => ?_⟩
  have honest := remembers.honest
  have kept := remembers.kept
  have forgetful : resolver.Forgetful memo :=
    { resolve := fun context specifier origin =>
        alike_resolve uniform honest DescriptorMemo.honest_empty context
          specifier origin
      descriptorIn := fun directory =>
        alike_describe uniform honest DescriptorMemo.honest_empty rfl
      nearestPackage := fun path =>
        alike_firstOf uniform honest DescriptorMemo.honest_empty
          (Path.SameWay.ancestors rfl) }
  refine ⟨forgetful, fun directory => ?_, kept.size_eq, ?_, fun later =>
    extends_of_requests⟩
  · rw [kept.asked, List.mem_map]
    rfl
  · exact List.pairwise_map.mp kept.lookedOnce

/-- A package whose manifest names a file of it. -/
def smallPackage : FileTree :=
  FileTree.empty.insertFile (.ofString "/p/package.json")
    "\x7b\"browser\":\x7b\"./a.js\":\"./b.js\"\x7d\x7d"

/-- The memo after a question for the directory of a package, spelled with a
slash at its end. -/
def slashedMemo : DescriptorMemo :=
  (descriptorIn ⟨smallPackage.toFileSystem, .standard⟩ .empty
    (.ofString "/p/")).2

/-- A later question for the directory is answered in the earlier spelling,
which leads the same way. -/
theorem memo_unobservable_and_kept_slashedMemo :
    ∃ descriptor fresh,
      (nearestPackage ⟨smallPackage.toFileSystem, .standard⟩ slashedMemo
          (.ofString "/p/lib/a.js")).1 = some descriptor ∧
        (nearestPackage ⟨smallPackage.toFileSystem, .standard⟩ .empty
          (.ofString "/p/lib/a.js")).1 = some fresh ∧
        descriptor.directory = .ofString "/p/" ∧
        fresh.directory = .ofString "/p" ∧
        descriptor.Alike fresh := by
  have remembers :
      Remembers ⟨smallPackage.toFileSystem, .standard⟩ slashedMemo :=
    .descriptorIn _ .nothing
  have real := (memo_unobservable_and_kept.2 _ _
    (memo_unobservable_and_kept.1 smallPackage) remembers).1.nearestPackage
      (.ofString "/p/lib/a.js")
  have spelled :
      (nearestPackage ⟨smallPackage.toFileSystem, .standard⟩ slashedMemo
          (.ofString "/p/lib/a.js")).1.map (·.directory) =
            some (.ofString "/p/") := by
    decide +kernel
  have freshSpelled :
      (nearestPackage ⟨smallPackage.toFileSystem, .standard⟩ .empty
          (.ofString "/p/lib/a.js")).1.map (·.directory) =
            some (.ofString "/p") := by
    decide +kernel
  obtain ⟨descriptor, answer, directory⟩ := Option.map_eq_some_iff.mp spelled
  obtain ⟨fresh, freshAnswer, freshDirectory⟩ :=
    Option.map_eq_some_iff.mp freshSpelled
  rw [answer, freshAnswer] at real
  cases real with
  | some alike =>
      exact ⟨descriptor, fresh, answer, freshAnswer, directory,
        freshDirectory, alike⟩

end Resolver
end CommonJs
