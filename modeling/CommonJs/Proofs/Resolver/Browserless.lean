import CommonJs.Proofs.FileSystem.Shape
import CommonJs.Proofs.Resolver.Descent
import CommonJs.Proofs.Resolver.Priority
import CommonJs.Proofs.Resolver.Simulation

/-!
# Resolution without browser fields

Browser fields do not count for a resolver that is told to leave them alone,
and for one whose packages have none. Two such resolvers over trees of one
shape run in step as long as the main files of the directories are the same:
neither has a package whose entries it would look at, so it does not matter
where a request comes from either.
-/

namespace CommonJs
namespace Resolver

open Search (InStep)

/-- A package without browser entries, or none. -/
def Unmapped (scope : Option PackageDescriptor) : Prop :=
  ∀ package ∈ scope, package.browser.isEmpty = true

/-- A resolver for which no browser field counts. -/
def Quiet (resolver : Resolver) : Prop :=
  resolver.config.browser = true →
    ∀ directory : Path,
      Unmapped
        (PackageDescriptor.read? resolver.fileSystem resolver.config.manifest
          directory)

section Quiet

variable {resolver : Resolver} {scope own : Option PackageDescriptor}

theorem unmapped_none : Unmapped none := by
  simp [Unmapped]

theorem Unmapped.fileReplacement?_eq_none
    (unmapped : Unmapped scope)
    (resolver : Resolver)
    (candidate : Path) : resolver.fileReplacement? scope candidate = none := by
  cases scope with
  | none => rfl
  | some package =>
      have empty := unmapped package rfl
      simp only [BrowserMap.isEmpty, Bool.and_eq_true] at empty
      simp [fileReplacement?, BrowserMap.hasFiles, empty.1.2]

theorem Unmapped.moduleReplacement?_eq_none
    (unmapped : Unmapped scope)
    (specifier : String) : moduleReplacement? scope specifier = none := by
  cases scope with
  | none => rfl
  | some package =>
      have empty := unmapped package rfl
      simp only [BrowserMap.isEmpty, Bool.and_eq_true] at empty
      simp [moduleReplacement?, BrowserMap.module?,
        Std.TreeMap.getElem?_of_isEmpty empty.2]

/-- Where no entry counts, nothing stands for the main file. -/
theorem Unmapped.mainReplacement?_eq_none
    (unmapped : resolver.config.browser = true → Unmapped own) :
    resolver.mainReplacement? own = none := by
  cases own with
  | none => rfl
  | some package =>
      unfold mainReplacement?
      rw [Option.bind_eq_bind, Option.bind_some]
      split
      next browser =>
        have empty := unmapped browser package rfl
        simp only [BrowserMap.isEmpty, Bool.and_eq_true,
          Option.isNone_iff_eq_none] at empty
        rw [empty.1.1]
        rfl
      next => rfl

/-- Without entries around and inside, there are none to be met inside. -/
theorem Unmapped.innerScope
    (unmapped : resolver.config.browser = true → Unmapped own)
    (surrounds : Unmapped scope) :
    Unmapped (resolver.innerScope own scope) := by
  unfold Resolver.innerScope
  split
  next browser =>
    cases own with
    | none => exact surrounds
    | some package => exact unmapped browser
  next => exact unmapped_none

/-- What an honest memo says of a directory of a quiet resolver has no
entries. -/
theorem Quiet.describe
    (quiet : resolver.Quiet)
    (browser : resolver.config.browser = true)
    {memo : DescriptorMemo}
    (honest : memo.Honest resolver.fileSystem resolver.config.manifest)
    (directory : Path) :
    Unmapped (memo.describe resolver.fileSystem resolver.config.manifest
      directory).1 := by
  obtain ⟨spelling, _, answer⟩ := honest.describe_answer directory
  rw [answer]
  exact quiet browser spelling

/-- A search that asks for a package, gets one without entries and does nothing
else. -/
def AsksInVain
    (resolver : Resolver)
    (search : Search (Option PackageDescriptor)) : Prop :=
  ∀ state : SearchState,
    state.memo.Honest resolver.fileSystem resolver.config.manifest →
      ∃ scope memo,
        search state = some (scope, { state with memo }) ∧
          Unmapped scope ∧
            memo.Honest resolver.fileSystem resolver.config.manifest

/-- A quiet resolver asks in vain for the package around a directory. -/
theorem Quiet.asksInVain_scopeInside
    (quiet : resolver.Quiet)
    (directory : Path) :
    resolver.AsksInVain (resolver.scopeInside directory) := by
  intro state honest
  unfold scopeInside
  split
  next browser =>
    exact ⟨_, _, rfl, quiet.describe browser honest directory,
      honest.describe directory⟩
  next => exact ⟨none, state.memo, rfl, unmapped_none, honest⟩

/-- Wherever a request comes from, the package around it has no entries that
count. -/
theorem Quiet.asksInVain_searchScope
    (quiet : resolver.Quiet)
    (context : Path)
    (origin : Option Path) :
    resolver.AsksInVain (resolver.searchScope context origin) := by
  intro state honest
  refine ⟨(resolver.scopeOf state.memo context origin).1,
    (resolver.scopeOf state.memo context origin).2, rfl, ?_,
    resolver.tracks_honest.scopeOf honest context origin⟩
  intro package answer
  obtain ⟨browser, directory, described⟩ := scopeOf_eq_some honest answer
  exact quiet browser directory package described

/-- An empty browser field names no target. -/
theorem not_names_of_isEmpty
    {map : BrowserMap}
    (empty : map.isEmpty = true)
    (target : BrowserTarget)
    (kind : EntryKind) : ¬ map.Names target kind := by
  simp only [BrowserMap.isEmpty, Bool.and_eq_true,
    Option.isNone_iff_eq_none] at empty
  obtain ⟨⟨main, files⟩, modules⟩ := empty
  intro names
  cases kind with
  | main =>
      rw [BrowserMap.Names, main] at names
      cases names
  | file =>
      obtain ⟨path, entry⟩ := names
      simp [BrowserMap.file?, Std.TreeMap.getElem?_of_isEmpty files] at entry
  | module =>
      obtain ⟨specifier, entry⟩ := names
      simp [BrowserMap.module?, Std.TreeMap.getElem?_of_isEmpty modules]
        at entry

/-- A quiet resolver meets no replacement, so it answers every request, and the
answer is the same however deep replacements may be nested. -/
theorem Quiet.exists_resolveWithin
    (quiet : resolver.Quiet)
    {memo : DescriptorMemo}
    (honest : memo.Honest resolver.fileSystem resolver.config.manifest)
    (context : Path)
    (specifier : String)
    (origin : Option Path) :
    ∃ outcome, ∀ depth,
      resolver.resolveWithin depth (some triedLimit) memo context
          specifier origin =
        some outcome := by
  by_cases empty : specifier = ""
  · exact ⟨_, fun depth => by rw [resolveWithin, if_pos empty]⟩
  · obtain ⟨package, target, kind, hits⟩ | ⟨file, next, ran⟩ :=
      hits_or_resolves context origin honest empty
    · obtain ⟨browser, directory, described⟩ :=
        (hits.offers honest).1.described package rfl
      exact absurd (hits.offers honest).1.names
        (not_names_of_isEmpty (quiet browser directory package described)
          target kind)
    · exact ⟨_, ran⟩

end Quiet

/-! ## Two quiet resolvers -/

/-- Neither package has entries. -/
def BothUnmapped (scope other : Option PackageDescriptor) : Prop :=
  Unmapped scope ∧ Unmapped other

/-- Two resolvers that do not look at browser fields, and that agree on
everything else that they look at. -/
structure QuietTwins (first second : Resolver) : Prop where
  /-- The same extensions are tried. -/
  extensions : first.config.extensions = second.config.extensions
  /-- Packages lie in directories of the same names. -/
  packageRoots : first.config.packageRoots = second.config.packageRoots
  /-- The same stands at each path. -/
  stat (path : Path) : first.fileSystem.stat path = second.fileSystem.stat path
  /-- Each path has one canonical path in both. -/
  canonicalize (path : Path) :
    first.fileSystem.canonicalize path = second.fileSystem.canonicalize path
  /-- Each directory has one main file in both. -/
  mainOf (directory : Path) : first.mainOf directory = second.mainOf directory
  /-- The first finds one main file for all spellings of a directory. -/
  mainsAgree : first.MainsAgree
  /-- The first does not meet any entry. -/
  quiet : first.Quiet
  /-- Neither does the second. -/
  otherQuiet : second.Quiet

section Twins

variable {first second : Resolver}

/-- Two questions in vain leave states with the same places tried. -/
theorem inStep_asksInVain
    {search other : Search (Option PackageDescriptor)}
    (asks : first.AsksInVain search)
    (otherAsks : second.AsksInVain other) :
    InStep (HonestStates first second Eq) BothUnmapped search other := by
  intro state otherState honest
  obtain ⟨scope, memo, ran, unmapped, nextHonest⟩ := asks state honest.memo
  obtain ⟨otherScope, otherMemo, otherRan, otherUnmapped, otherNextHonest⟩ :=
    otherAsks otherState honest.otherMemo
  rw [ran, otherRan]
  exact .some
    ⟨⟨unmapped, otherUnmapped⟩, nextHonest, otherNextHonest, honest.trail⟩

/-- Packages without entries have the same entries. -/
theorem sameScope_of_bothUnmapped
    {scope other : Option PackageDescriptor}
    (unmapped : BothUnmapped scope other) :
    SameScope Eq first second scope other where
  file _ := by
    rw [unmapped.1.fileReplacement?_eq_none,
      unmapped.2.fileReplacement?_eq_none]
    exact .none
  module _ := by
    rw [unmapped.1.moduleReplacement?_eq_none,
      unmapped.2.moduleReplacement?_eq_none]
    exact .none

/-- What quiet resolvers learn about a directory is its main file. -/
theorem QuietTwins.sameOwn
    (twins : QuietTwins first second)
    {directory spelling otherSpelling : Path}
    (spells : spelling.SameWay directory)
    (otherSpells : otherSpelling.SameWay directory) :
    SameOwn Eq BothUnmapped first second
      (PackageDescriptor.read? first.fileSystem first.config.manifest spelling)
      (PackageDescriptor.read? second.fileSystem second.config.manifest
        otherSpelling) where
  main :=
    (twins.mainsAgree _ _ (spells.trans otherSpells.symm)).trans
      (twins.mainOf _)
  replacement := by
    rw [Unmapped.mainReplacement?_eq_none fun browser =>
        twins.quiet browser spelling,
      Unmapped.mainReplacement?_eq_none fun browser =>
        twins.otherQuiet browser otherSpelling]
    exact .none
  innerScope surrounds :=
    ⟨Unmapped.innerScope (fun browser => twins.quiet browser spelling)
      surrounds.1,
      Unmapped.innerScope
        (fun browser => twins.otherQuiet browser otherSpelling) surrounds.2⟩

/-- Descriptors that agree on the main file lead a quiet search the same way. -/
theorem QuietTwins.answersAlike
    (twins : QuietTwins first second) :
    AnswersAlike first second Eq (SameOwn Eq BothUnmapped first second) := by
  refine answersAlike_of_read?
    fun directory other spelling otherSpelling equal spells => ?_
  subst equal
  exact twins.sameOwn spells

/-- Quiet twins do the same at every path. -/
theorem QuietTwins.mirrors
    (twins : QuietTwins first second) :
    Mirrors first second Eq BothUnmapped (HonestStates first second Eq) where
  paths := Path.respected_eq
  noScope := ⟨unmapped_none, unmapped_none⟩
  scope unmapped := sameScope_of_bothUnmapped unmapped
  extensions := twins.extensions
  packageRoots := twins.packageRoots
  isFile equal := by
    rw [equal, FileSystem.isFile, FileSystem.isFile, twins.stat]
  isDirectory equal := by
    rw [equal, FileSystem.isDirectory, FileSystem.isDirectory, twins.stat]
  canonicalize equal := by
    rw [equal, twins.canonicalize]
  tryPlace equal := HonestStates.tryPlace equal
  describe equal := twins.answersAlike.describe overHonest_honestStates equal
  scopeInside _ :=
    inStep_asksInVain (twins.quiet.asksInVain_scopeInside _)
      (twins.otherQuiet.asksInVain_scopeInside _)

/-- Both resolvers give the same result to a request, or neither gives one. -/
theorem QuietTwins.resolve
    (twins : QuietTwins first second)
    {memo otherMemo : DescriptorMemo}
    (honest : memo.Honest first.fileSystem first.config.manifest)
    (otherHonest : otherMemo.Honest second.fileSystem second.config.manifest)
    (context : Path)
    (specifier : String)
    (origin otherOrigin : Option Path) :
    Option.Rel (fun outcome other => outcome.1 = other.1)
      (first.resolve memo context specifier origin)
      (second.resolve otherMemo context specifier otherOrigin) := by
  have start : HonestStates first second Eq
      ⟨memo, .start (some triedLimit)⟩ ⟨otherMemo, .start (some triedLimit)⟩ :=
    ⟨honest, otherHonest, .start _ _⟩
  have surrounds := inStep_asksInVain
    (twins.quiet.asksInVain_searchScope
      (first.fileSystem.canonicalize context) origin)
    (twins.otherQuiet.asksInVain_searchScope
      (second.fileSystem.canonicalize context) otherOrigin)
  have ran := twins.mirrors.resolveWithin second.nestingLimit specifier
    (twins.canonicalize context) start surrounds
  obtain ⟨_, anyDepth⟩ :=
    twins.quiet.exists_resolveWithin honest context specifier origin
  unfold Resolver.resolve
  rw [anyDepth first.nestingLimit, ← anyDepth second.nestingLimit]
  refine optionRel_mono ran fun outcome other both => ?_
  obtain ⟨resolution, trail, otherTrail, tried, otherTried, states⟩ := both
  have places := states.trail.places
  rw [List.forall₂_eq_eq_eq, ← tried, ← otherTried] at places
  obtain ⟨⟨_, _⟩, _⟩ := outcome
  obtain ⟨⟨_, _⟩, _⟩ := other
  obtain rfl := Resolution.eq_of_alike resolution
  obtain rfl := places
  rfl

end Twins

/-! ## Browser fields that do not count -/

/-- A resolver that leaves browser fields alone answers every request, never
with what only browser fields lead to. -/
theorem exists_resolve_plain
    {resolver : Resolver}
    (agree : resolver.MainsAgree)
    (plain : resolver.config.browser = false)
    {memo : DescriptorMemo}
    (honest : memo.Honest resolver.fileSystem resolver.config.manifest)
    (context : Path)
    (specifier : String)
    (origin : Option Path) :
    ∃ result next,
      resolver.resolve memo context specifier origin = some (result, next) ∧
        result.resolution ≠ .stub ∧
          result.resolution ≠ .unresolved .browserTargetNotFound := by
  by_cases empty : specifier = ""
  · refine ⟨⟨.unresolved .specifierInvalid, []⟩, memo, ?_, by simp, by simp⟩
    rw [resolve, resolveWithin, if_pos empty]
  · obtain ⟨result, next, outcome, resolution⟩ :=
      resolve_firstFile? agree plain honest context empty origin
    refine ⟨result, next, outcome, ?_⟩
    rw [resolution, ofFinding_firstFile?, missReason]
    split
    · simp
    · split
      all_goals simp

/-- To leave browser fields alone is the same as to have none. Let two trees
have one shape, and manifests for the same directories with the same main
files. Then a resolver that leaves the browser fields of the first tree alone
gives the results of one for the second tree, whatever both were asked before
and wherever the two requests come from, provided that the second one leaves
browser fields alone as well or that no manifest of its tree has one that
says anything. No such result is a request for nothing or a replacement that
leads nowhere. -/
theorem resolve_eq_without_browser_fields
    {tree other : FileTree}
    (config : ResolverConfig)
    (otherBrowser : Bool)
    (shape : tree.SameShape other)
    (mains : ∀ directory,
      (PackageDescriptor.read? tree.toFileSystem config.manifest directory).map
          (·.main) =
        (PackageDescriptor.read? other.toFileSystem config.manifest
          directory).map (·.main))
    (unmapped : otherBrowser = true → ∀ directory descriptor,
      PackageDescriptor.read? other.toFileSystem config.manifest directory =
          some descriptor →
        descriptor.browser.isEmpty = true)
    {memo otherMemo : DescriptorMemo}
    (remembers :
      Remembers ⟨tree.toFileSystem, { config with browser := false }⟩ memo)
    (otherRemembers :
      Remembers ⟨other.toFileSystem, { config with browser := otherBrowser }⟩
        otherMemo)
    (context : Path)
    (specifier : String)
    (origin otherOrigin : Option Path) :
    ∃ result next otherNext,
      resolve ⟨tree.toFileSystem, { config with browser := false }⟩ memo context
          specifier origin = some (result, next) ∧
        resolve ⟨other.toFileSystem, { config with browser := otherBrowser }⟩
            otherMemo context specifier otherOrigin = some (result, otherNext) ∧
          result.resolution ≠ .stub ∧
            result.resolution ≠ .unresolved .browserTargetNotFound := by
  have twins : QuietTwins ⟨tree.toFileSystem, { config with browser := false }⟩
      ⟨other.toFileSystem, { config with browser := otherBrowser }⟩ :=
    { extensions := rfl
      packageRoots := rfl
      stat := shape.stat_eq
      canonicalize := shape.canonicalize_eq
      mainOf := fun directory => by
        rw [mainOf_eq_join, mainOf_eq_join]
        exact congrArg Option.join (mains directory)
      mainsAgree := mainsAgree tree _
      quiet := fun browser => by cases browser
      otherQuiet := fun browser directory descriptor described =>
        unmapped browser directory descriptor described }
  have same := twins.resolve remembers.honest otherRemembers.honest context
    specifier origin otherOrigin
  obtain ⟨result, next, outcome, noStub, noMissing⟩ :=
    exists_resolve_plain twins.mainsAgree rfl remembers.honest context
      specifier origin
  rw [outcome] at same
  generalize otherOutcome : resolve _ otherMemo context specifier otherOrigin =
    other at same
  cases same with
  | @some _ answered equal =>
      obtain ⟨otherResult, otherNext⟩ := answered
      obtain rfl : result = otherResult := equal
      exact ⟨result, next, otherNext, outcome, rfl, noStub, noMissing⟩

/-- A package with one file besides its manifest. -/
def packageWith (manifest : String) : FileTree :=
  (FileTree.empty.insertFile (.ofString "/p/lib.js") "").insertFile
    (.ofString "/p/package.json") manifest

theorem text_packageWith (manifest : String) (place : Path) :
    ((packageWith manifest).read place).toOption =
      if FileTree.empty.key (.ofString "/p/package.json") =
        FileTree.empty.key place then some manifest
      else if FileTree.empty.key (.ofString "/p/lib.js") =
        FileTree.empty.key place then some ""
      else none := by
  have nothing : (FileTree.empty.read place).toOption = none := by
    simp [FileTree.toOption_read, FileTree.node?, FileTree.empty]
  rw [packageWith, FileTree.text_insertFile, FileTree.text_insertFile,
    FileTree.key_insertFile, FileTree.key_insertFile, nothing]

/-- A package whose manifest replaces its main file by nothing, and the same
package without the replacement. -/
def remapped : FileTree :=
  packageWith "\x7b\"main\":\"lib\",\"browser\":\x7b\"./lib.js\":false\x7d\x7d"

def unremapped : FileTree :=
  packageWith "\x7b\"main\":\"lib\"\x7d"

/-- The two packages differ in the text of the manifest alone. -/
theorem sameShape_remapped : remapped.SameShape unremapped :=
  FileTree.sameShape_insertFile
    (FileTree.empty.insertFile (.ofString "/p/lib.js") "")
    (.ofString "/p/package.json") _ _

/-- Both manifests have the same main file. -/
theorem mains_remapped (directory : Path) :
    (PackageDescriptor.read? remapped.toFileSystem "package.json" directory).map
        (·.main) =
      (PackageDescriptor.read? unremapped.toFileSystem "package.json"
          directory).map
        (·.main) := by
  rw [PackageDescriptor.map_main_read?, PackageDescriptor.map_main_read?,
    remapped, unremapped, text_packageWith, text_packageWith]
  generalize FileTree.empty.key (.ofString "/p/package.json") = manifestKey
  split
  · decide +kernel
  · rfl

/-- A manifest, if it is an object, has no browser field. -/
def lacksBrowserField : Json → Bool
  | .object members => (Json.member? members "browser").isNone
  | _ => true

theorem isEmpty_browser_unremapped
    {directory : Path}
    {descriptor : PackageDescriptor}
    (described :
      PackageDescriptor.read? unremapped.toFileSystem "package.json" directory =
        some descriptor) : descriptor.browser.isEmpty = true := by
  have noField : ∀ text : String, text = "\x7b\"main\":\"lib\"\x7d" ∨
        text = "" →
      (Json.ofText? text).all lacksBrowserField = true := by
    rintro text (rfl | rfl)
    · decide +kernel
    · decide +kernel
  rw [PackageDescriptor.read?_toFileSystem, unremapped, text_packageWith]
    at described
  obtain ⟨text, isText, described⟩ := Option.bind_eq_some_iff.mp described
  obtain ⟨json, parsed, described⟩ := Option.bind_eq_some_iff.mp described
  have oneOfTwo : text = "\x7b\"main\":\"lib\"\x7d" ∨ text = "" := by
    split_ifs at isText
    · exact Or.inl (Option.some.inj isText).symm
    · exact Or.inr (Option.some.inj isText).symm
  have absent := noField text oneOfTwo
  rw [parsed] at absent
  cases json with
  | object members =>
      exact PackageDescriptor.isEmpty_browser_of_member?_eq_none
        (by simpa [lacksBrowserField] using absent) described
  | _ => cases described

/-- With browser fields left out of account, the entries do not matter. -/
theorem resolve_eq_without_browser_fields_remapped :
    ∃ result next otherNext,
      resolve ⟨remapped.toFileSystem,
            { ResolverConfig.standard with browser := false }⟩
          .empty (.ofString "/") "./p" none = some (result, next) ∧
        resolve ⟨unremapped.toFileSystem,
              { ResolverConfig.standard with browser := true }⟩
            .empty (.ofString "/") "./p" (some (.ofString "/p/lib.js")) =
          some (result, otherNext) ∧
        result.resolution = .path (.ofString "/p/lib.js") := by
  obtain ⟨result, next, otherNext, outcome, otherOutcome, _, _⟩ :=
    resolve_eq_without_browser_fields ResolverConfig.standard true
      sameShape_remapped
      mains_remapped (fun _ _ _ => isEmpty_browser_unremapped) .nothing .nothing
      (.ofString "/") "./p" none (some (.ofString "/p/lib.js"))
  have leads :
      (resolve ⟨remapped.toFileSystem,
            { ResolverConfig.standard with browser := false }⟩
          .empty (.ofString "/") "./p" none).map (·.1.resolution) =
        some (.path (.ofString "/p/lib.js")) := by
    decide +kernel
  rw [outcome] at leads
  exact ⟨result, next, otherNext, outcome, otherOutcome, Option.some.inj leads⟩

end Resolver
end CommonJs
