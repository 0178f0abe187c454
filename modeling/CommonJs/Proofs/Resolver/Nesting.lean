import CommonJs.Proofs.Path.Below
import CommonJs.Proofs.Resolver.Replacement
import Mathlib.Data.Set.Card

/-!
# Replacements nested in one another

What is left of a search after a replacement is the search for the target,
and that can meet entries of one more manifest only: that of the directory
which the target leads to, read as a path, as the name of a package, or as a
path inside a package. So a replacement that is nested in another one comes
from a manifest that a target of the outer one can name. A request has an
answer where no chain of nested replacements is longer than the depth allows.
-/

namespace CommonJs

theorem PackageDescriptor.directory_eq_of_read?
    {fileSystem : FileSystem}
    {manifest : String}
    {directory : Path}
    {package : PackageDescriptor}
    (described : read? fileSystem manifest directory = some package) :
    package.directory = directory := by
  unfold read? at described
  dsimp only at described
  split at described
  · split at described
    · obtain ⟨json, _, isObject⟩ := Option.bind_eq_some_iff.mp described
      cases json with
      | object members =>
          obtain rfl := Option.some.inj isObject
          rfl
      | _ => cases isObject
    · cases described
  · cases described

/-! ## One manifest for all spellings of a directory -/

namespace FileTree

variable {tree : FileTree} (sensitive : tree.caseSensitive = true)

include sensitive

/-- A browser field names the same files from a directory and from its normal
path. -/
theorem ofJson_normalize
    (directory : Path)
    (field : Option Json) :
    BrowserMap.ofJson tree.toFileSystem directory.normalize field =
      BrowserMap.ofJson tree.toFileSystem directory field := by
  have sameEntry :
      BrowserMap.addEntry tree.toFileSystem directory.normalize =
        BrowserMap.addEntry tree.toFileSystem directory := by
    funext map key value
    have samePath :
        tree.toFileSystem.canonicalize (directory.normalize.child key) =
          tree.toFileSystem.canonicalize (directory.child key) :=
      canonicalize_eq_of_normalize_eq sensitive
        (Path.normalize_join directory _)
    rw [BrowserMap.addEntry, BrowserMap.addEntry, samePath]
  unfold BrowserMap.ofJson
  rw [sameEntry]

/-- The manifest in a directory is that in its normal form, and says the same
of everything but the spelling of the directory. -/
theorem read?_normalize
    (manifest : String)
    (directory : Path) :
    PackageDescriptor.read? tree.toFileSystem manifest directory.normalize =
      (PackageDescriptor.read? tree.toFileSystem manifest directory).map
        fun package => { package with directory := directory.normalize } := by
  rw [PackageDescriptor.read?_toFileSystem,
    PackageDescriptor.read?_toFileSystem,
    toOption_read_child (key_normalize tree directory), Option.map_bind]
  refine congrArg _ (funext fun text => ?_)
  rw [Function.comp_apply, Option.map_bind]
  refine congrArg _ (funext fun json => ?_)
  cases json with
  | object members =>
      rw [Function.comp_apply, PackageDescriptor.ofJson?,
        PackageDescriptor.ofJson?, ofJson_normalize sensitive]
      rfl
  | _ => rfl

end FileTree

namespace Resolver

/-! ## From manifest to manifest -/

/-- A normal directory in which a manifest is found. -/
def HasManifest (resolver : Resolver) (directory : Path) : Prop :=
  directory.IsNormal ∧
    (PackageDescriptor.read? resolver.fileSystem resolver.config.manifest
      directory).isSome = true

/-- All normal directories in which a manifest is found. -/
def manifestDirectories (resolver : Resolver) : Set Path :=
  {directory | resolver.HasManifest directory}

/-- The directories that a target in the manifest of a directory can name: the
target read as a path, as the name of a package, and as a path inside a
package, in whatever place the package may lie. -/
inductive CanName
    (config : ResolverConfig)
    (directory : Path)
    (target : String) : Path → Prop
  | path : CanName config directory target (directory.child target).normalize
  | package (above : Path) {root : String} :
      root ∈ config.packageRoots →
      CanName config directory target
        ((above.child root).child (Specifier.split target).1).normalize
  | inside (above : Path) {root path : String} :
      root ∈ config.packageRoots →
      (Specifier.split target).2 = some path →
      CanName config directory target
        (((above.child root).child (Specifier.split target).1).child
          path).normalize

/-- Some target in the manifest of a directory can name the other directory,
which is there and has a manifest as well. -/
structure LeadsTo (resolver : Resolver) (directory inner : Path) : Prop where
  /-- The directory has a manifest. -/
  hasManifest : resolver.HasManifest directory
  /-- So has the other one. -/
  innerHasManifest : resolver.HasManifest inner
  /-- The other one is there. -/
  isDirectory : resolver.fileSystem.isDirectory inner = true
  /-- A target of the first manifest can name it. -/
  names : ∃ package target kind,
    PackageDescriptor.read? resolver.fileSystem resolver.config.manifest
          directory =
        some package ∧
      package.browser.Names (.path target) kind ∧
        CanName resolver.config directory target inner

/-! ## A replacement that is met -/

/-- A replacement by a target of a package, and the state that the search is in
when it meets it. -/
structure Replacing where
  /-- The package whose entry is met. -/
  package : PackageDescriptor
  /-- The target of the entry. -/
  target : BrowserTarget
  /-- What the entry stands for. -/
  kind : EntryKind
  /-- The state of the search. -/
  state : SearchState

namespace Replacing

/-- The normal form of the directory whose manifest names the replacement. -/
def site (replacing : Replacing) : Path :=
  replacing.package.directory.normalize

/-- What is left to do when a replacement is met, given some way to carry it
out. -/
def rest
    (replacing : Replacing)
    (replace : Replace) : Option (Option Finding × SearchState) :=
  (some <$> replace replacing.package replacing.target replacing.kind)
  replacing.state

/-- The replacement is one that a manifest offers, met with an honest memo. -/
structure Sound (resolver : Resolver) (replacing : Replacing) : Prop where
  /-- The entry is one of a manifest. -/
  offers : resolver.Offers replacing.package replacing.target replacing.kind
  /-- The memo says what the manifests say. -/
  honest :
    replacing.state.memo.Honest resolver.fileSystem resolver.config.manifest

/-- The search for the target of a replacement comes down to another
replacement, which is nested in the first one. -/
def Nests (resolver : Resolver) (outer inner : Replacing) : Prop :=
  ∃ specifier,
    outer.target = .path specifier ∧
      ∀ replace,
        resolver.searchReplacement replace outer.package specifier outer.kind
            outer.state =
          inner.rest replace

/-- A request comes down to a replacement, in which others may be nested. -/
def Begins
    (resolver : Resolver)
    (memo : DescriptorMemo)
    (context : Path)
    (specifier : String)
    (origin : Option Path)
    (first : Replacing) : Prop :=
  specifier ≠ "" ∧
    ∀ replace,
      resolver.searchRequest replace context specifier origin
          ⟨memo, .start (some triedLimit)⟩ =
        first.rest replace

theorem eq_of_rest_eq
    {first second : Replacing}
    (same : ∀ replace, first.rest replace = second.rest replace) :
    first = second := by
  obtain ⟨package, target, kind, state⟩ := first
  obtain ⟨rfl, rfl, rfl, rfl⟩ := replacement_unique same
  rfl

/-- A search comes down to a replacement of the admitted kind, or to none at
all. -/
theorem of_comesDown
    {resolver : Resolver}
    {admits : PackageDescriptor → BrowserTarget → EntryKind → Prop}
    {search : Replace → Search (Option Finding)}
    {before : SearchState}
    (comesDown : resolver.ComesDown admits search)
    (honest : before.memo.Honest resolver.fileSystem resolver.config.manifest) :
    (∃ found after, ∀ replace, search replace before = some (found, after)) ∨
      ∃ replacing : Replacing,
        (∀ replace, search replace before = replacing.rest replace) ∧
          admits replacing.package replacing.target replacing.kind ∧
            replacing.state.memo.Honest resolver.fileSystem
              resolver.config.manifest := by
  obtain ⟨after, honestAfter, ended | replaced⟩ := comesDown before honest
  · obtain ⟨file, ran⟩ := ended
    exact .inl ⟨_, after, ran⟩
  · obtain ⟨package, target, kind, admitted, ran⟩ := replaced
    exact .inr ⟨⟨package, target, kind, after⟩, ran, admitted, honestAfter⟩

/-- The replacement that a search comes down to is of the admitted kind. -/
theorem admitted_of_comesDown
    {resolver : Resolver}
    {admits : PackageDescriptor → BrowserTarget → EntryKind → Prop}
    {search : Replace → Search (Option Finding)}
    {before : SearchState}
    {replacing : Replacing}
    (comesDown : resolver.ComesDown admits search)
    (honest : before.memo.Honest resolver.fileSystem resolver.config.manifest)
    (met : ∀ replace, search replace before = replacing.rest replace) :
    admits replacing.package replacing.target replacing.kind ∧
      replacing.state.memo.Honest resolver.fileSystem
        resolver.config.manifest := by
  obtain ⟨found, after, ran⟩ | ⟨other, otherMet, admitted, honestAfter⟩ :=
    of_comesDown comesDown honest
  · have givesUp :=
      (ran fun _ _ _ => failure).symm.trans (met fun _ _ _ => failure)
    cases givesUp
  · obtain rfl :=
      eq_of_rest_eq fun replace => (met replace).symm.trans (otherMet replace)
    exact ⟨admitted, honestAfter⟩

end Replacing

section Sensitive

variable {tree : FileTree} {config : ResolverConfig}
variable {package : PackageDescriptor} {target : BrowserTarget}
  {kind : EntryKind}

/-- A package of which a manifest tells is described by the manifest in the
normal form of its directory. -/
theorem Described.read?_normalize
    (described : Described ⟨tree.toFileSystem, config⟩ (some package))
    (sensitive : tree.caseSensitive = true) :
    PackageDescriptor.read? tree.toFileSystem config.manifest
        package.directory.normalize =
      some { package with directory := package.directory.normalize } := by
  obtain ⟨_, directory, answer⟩ := described package rfl
  obtain rfl := PackageDescriptor.directory_eq_of_read? answer
  rw [FileTree.read?_normalize sensitive, answer]
  rfl

theorem Described.hasManifest
    (described : Described ⟨tree.toFileSystem, config⟩ (some package))
    (sensitive : tree.caseSensitive = true) :
    HasManifest ⟨tree.toFileSystem, config⟩ package.directory.normalize :=
  ⟨Path.isNormal_normalize _,
    Option.isSome_of_eq_some (described.read?_normalize sensitive)⟩

/-- A manifest of which a search for a target is told is one that the target
can name. -/
theorem Offers.leadsTo
    {specifier : String}
    (offers : Offers ⟨tree.toFileSystem, config⟩ package (.path specifier) kind)
    (sensitive : tree.caseSensitive = true)
    {directory : Path}
    {inner : PackageDescriptor}
    (tells : Tells ⟨tree.toFileSystem, config⟩ directory (some inner))
    (browser : config.browser = true)
    (isDirectory : tree.toFileSystem.isDirectory directory = true)
    (canName : CanName config package.directory.normalize specifier
      directory.normalize) :
    LeadsTo ⟨tree.toFileSystem, config⟩ package.directory.normalize
      inner.directory.normalize := by
  have described : Described ⟨tree.toFileSystem, config⟩ (some inner) :=
    tells.described browser
  obtain ⟨spelling, same, answer⟩ := tells
  have site : inner.directory.normalize = directory.normalize := by
    rw [PackageDescriptor.directory_eq_of_read? answer, same.normalize_eq]
  exact
    { hasManifest := offers.described.hasManifest sensitive
      innerHasManifest := described.hasManifest sensitive
      isDirectory := by
        rw [site, ← isDirectory]
        exact FileTree.isDirectory_eq_of_key_eq
          (FileTree.key_normalize tree directory)
      names := ⟨_, specifier, kind, offers.described.read?_normalize sensitive,
        offers.names, site ▸ canName⟩ }

/-- An entry that a manifest offers, where a target of a package can name the
directory of the manifest. -/
def Follows
    (resolver : Resolver)
    (package inner : PackageDescriptor)
    (target : BrowserTarget)
    (kind : EntryKind) : Prop :=
  resolver.Offers inner target kind ∧
    resolver.LeadsTo package.directory.normalize inner.directory.normalize

theorem Offers.admitsEntries
    {specifier : String}
    (offers : Offers ⟨tree.toFileSystem, config⟩ package (.path specifier) kind)
    (sensitive : tree.caseSensitive = true)
    {directory : Path}
    (canName :
      CanName config package.directory.normalize specifier directory.normalize)
    (browser : config.browser = true)
    (isDirectory : tree.toFileSystem.isDirectory directory = true)
    (own : Option PackageDescriptor)
    (tells : Tells ⟨tree.toFileSystem, config⟩ directory own) :
    AdmitsEntries ⟨tree.toFileSystem, config⟩
      (Follows ⟨tree.toFileSystem, config⟩ package) own where
  main replaced := by
    obtain ⟨_, rfl, _⟩ := mainReplacement?_eq_some replaced
    exact ⟨(tells.described browser).admitsEntries.main replaced,
      offers.leadsTo sensitive tells browser isDirectory canName⟩
  file candidate replaced := by
    obtain ⟨rfl, _⟩ := fileReplacement?_eq_some replaced
    exact ⟨(tells.described browser).admitsEntries.file candidate replaced,
      offers.leadsTo sensitive tells browser isDirectory canName⟩

/-- The search for the target of a replacement comes down to an entry of a
manifest that the target can name. -/
theorem comesDown_searchReplacement
    {specifier : String}
    (offers : Offers ⟨tree.toFileSystem, config⟩ package (.path specifier) kind)
    (sensitive : tree.caseSensitive = true) :
    ComesDown ⟨tree.toFileSystem, config⟩
      (Follows ⟨tree.toFileSystem, config⟩ package)
      fun replace =>
        searchReplacement ⟨tree.toFileSystem, config⟩ replace package
          specifier kind := by
  have asPath :
      ComesDown ⟨tree.toFileSystem, config⟩
        (Follows ⟨tree.toFileSystem, config⟩ package)
        fun replace =>
          searchPath ⟨tree.toFileSystem, config⟩ replace none
            (package.directory.child specifier).normalize := by
    refine comesDown_searchPath admitsEntries_none
      (offers.admitsEntries sensitive ?_)
    rw [Path.normalize_normalize, Path.child, ← Path.normalize_join]
    exact .path
  have asModule :
      ComesDown ⟨tree.toFileSystem, config⟩
        (Follows ⟨tree.toFileSystem, config⟩ package)
        fun replace =>
          searchBare ⟨tree.toFileSystem, config⟩ replace none package.directory
            specifier := by
    refine comesDown_searchBare (fun _ _ replaced => by cases replaced)
      (fun browser directory present =>
        offers.admitsEntries sensitive ?_ browser)
      fun browser directory present path isInside =>
        offers.admitsEntries sensitive ?_ browser
    · obtain ⟨above, _, root, isRoot, rfl⟩ :=
        exists_root_of_mem_packageCandidates present
      exact .package above isRoot
    · obtain ⟨above, _, root, isRoot, rfl⟩ :=
        exists_root_of_mem_packageCandidates present
      rw [Path.normalize_normalize]
      exact .inside above isRoot isInside
  unfold searchReplacement
  dsimp only
  split
  · exact asPath
  · split
    · exact asModule
    · exact asPath.before asModule.last

namespace Replacing

variable {first outer inner : Replacing}

/-- A replacement that is nested in another one comes from a manifest that the
target of the outer one can name. -/
theorem Nests.leadsTo
    (nests : Nests ⟨tree.toFileSystem, config⟩ outer inner)
    (sound : Sound ⟨tree.toFileSystem, config⟩ outer)
    (sensitive : tree.caseSensitive = true) :
    Sound ⟨tree.toFileSystem, config⟩ inner ∧
      LeadsTo ⟨tree.toFileSystem, config⟩ outer.site inner.site := by
  obtain ⟨specifier, isPath, met⟩ := nests
  have offers := sound.offers
  rw [isPath] at offers
  obtain ⟨⟨offered, leads⟩, honest⟩ :=
    admitted_of_comesDown (comesDown_searchReplacement offers sensitive)
      sound.honest met
  exact ⟨⟨offered, honest⟩, leads⟩

/-- Along a chain of nested replacements, each one is offered by a manifest. -/
theorem sound_of_isChain
    {rest : List Replacing}
    (sensitive : tree.caseSensitive = true)
    (sound : Sound ⟨tree.toFileSystem, config⟩ first)
    (chain : List.IsChain (Nests ⟨tree.toFileSystem, config⟩) (first :: rest)) :
    ∀ replacing ∈ first :: rest,
      Sound ⟨tree.toFileSystem, config⟩ replacing := by
  induction rest generalizing first with
  | nil => exact List.forall_mem_singleton.mpr sound
  | cons inner rest inductionHypothesis =>
      obtain ⟨nests, later⟩ := List.isChain_cons_cons.mp chain
      obtain ⟨soundInner, _⟩ := nests.leadsTo sound sensitive
      exact List.forall_mem_cons.mpr
        ⟨sound, inductionHypothesis soundInner later⟩

/-- Along a chain of nested replacements, each one leads to the next. -/
theorem leadsTo_of_isChain
    {rest : List Replacing}
    (sensitive : tree.caseSensitive = true)
    (sound : Sound ⟨tree.toFileSystem, config⟩ first)
    (chain : List.IsChain (Nests ⟨tree.toFileSystem, config⟩) (first :: rest)) :
    List.IsChain (LeadsTo ⟨tree.toFileSystem, config⟩)
      ((first :: rest).map site) := by
  induction rest generalizing first with
  | nil => exact .singleton _
  | cons inner rest inductionHypothesis =>
      obtain ⟨nests, later⟩ := List.isChain_cons_cons.mp chain
      obtain ⟨soundInner, leads⟩ := nests.leadsTo sound sensitive
      exact .cons_cons leads (inductionHypothesis soundInner later)

end Replacing

/-- All directories of a chain but the first one are led to. -/
theorem exists_leadsTo_of_mem
    {resolver : Resolver}
    {directory inner : Path}
    {others : List Path}
    (chain : List.IsChain resolver.LeadsTo (directory :: others))
    (present : inner ∈ others) : ∃ outer, resolver.LeadsTo outer inner := by
  have leads := (chain.imp fun _ _ => Relation.TransGen.single).pairwise
  obtain ⟨outer, _, last⟩ :=
    Relation.TransGen.tail'_iff.mp
      ((List.pairwise_cons.mp leads).1 inner present)
  exact ⟨outer, last⟩

/-! ## Replacements that are carried out -/

namespace Replacing

variable {first outer : Replacing}

/-- The replacement is carried out when no chain of nested ones is longer than
the depth allows. The induction is on the depth: a replacement that is nested
in this one begins chains that are shorter. -/
theorem Sound.isSome_replaceWithin
    (sound : Sound ⟨tree.toFileSystem, config⟩ outer)
    (sensitive : tree.caseSensitive = true)
    {depth : Nat}
    (bounded : ∀ rest,
      List.IsChain (Nests ⟨tree.toFileSystem, config⟩) (outer :: rest) →
      rest.length < depth) :
    (outer.rest (replaceWithin ⟨tree.toFileSystem, config⟩ depth)).isSome =
      true := by
  induction depth generalizing outer with
  | zero => exact absurd (bounded [] (.singleton _)) (Nat.not_lt_zero _)
  | succ depth inductionHypothesis =>
      obtain ⟨package, target, kind, state⟩ := outer
      cases target with
      | stub => rfl
      | path specifier =>
          have searched :
              (searchReplacement ⟨tree.toFileSystem, config⟩
                (replaceWithin ⟨tree.toFileSystem, config⟩ depth) package
                specifier kind
                state).isSome = true := by
            obtain ⟨found, after, ran⟩ | ⟨inner, met, ⟨offers, _⟩, honest⟩ :=
              of_comesDown (comesDown_searchReplacement sound.offers sensitive)
                sound.honest
            · rw [ran]
              rfl
            · rw [met]
              refine inductionHypothesis ⟨offers, honest⟩ fun rest chain => ?_
              have longer :=
                bounded (inner :: rest) (.cons_cons ⟨specifier, rfl, met⟩ chain)
              rw [List.length_cons] at longer
              omega
          obtain ⟨⟨finding, after⟩, ran⟩ := Option.isSome_iff_exists.mp searched
          unfold rest
          change (Option.bind
              (replaceWithin ⟨tree.toFileSystem, config⟩ (depth + 1) package
            (.path specifier) kind state) _).isSome = true
          rw [replaceWithin, Search.bind_apply, ran]
          rfl

/-- The first replacement of a request is met with a memo still honest. -/
theorem Begins.sound
    {resolver : Resolver}
    {memo : DescriptorMemo}
    {context : Path}
    {specifier : String}
    {origin : Option Path}
    (begins : Begins resolver memo context specifier origin first)
    (honest : memo.Honest resolver.fileSystem resolver.config.manifest) :
    Sound resolver first := by
  obtain ⟨offers, honestAfter⟩ := admitted_of_comesDown
    (comesDown_searchRequest context specifier origin) honest begins.2
  exact ⟨offers, honestAfter⟩

end Replacing

/-- A request has an answer when no chain of replacements that it begins is
longer than the depth allows. -/
theorem isSome_resolveWithin
    (sensitive : tree.caseSensitive = true)
    {memo : DescriptorMemo}
    (honest : memo.Honest tree.toFileSystem config.manifest)
    {context : Path}
    {specifier : String}
    {origin : Option Path}
    {depth : Nat}
    (bounded : ∀ first rest,
      Replacing.Begins ⟨tree.toFileSystem, config⟩ memo context specifier
        origin first →
      List.IsChain (Replacing.Nests ⟨tree.toFileSystem, config⟩)
        (first :: rest) →
      rest.length < depth) :
    (resolveWithin ⟨tree.toFileSystem, config⟩ depth (some triedLimit) memo
      context specifier
      origin).isSome = true := by
  by_cases empty : specifier = ""
  · rw [resolveWithin, if_pos empty]
    rfl
  · rw [resolveWithin_eq _ _ _ _ _ empty, Option.isSome_map]
    have comesDown :
        ComesDown ⟨tree.toFileSystem, config⟩
          (Offers ⟨tree.toFileSystem, config⟩)
          fun replace =>
            searchRequest ⟨tree.toFileSystem, config⟩ replace context specifier
              origin :=
      comesDown_searchRequest context specifier origin
    have start :
        (SearchState.mk memo (.start (some triedLimit))).memo.Honest
          tree.toFileSystem
          config.manifest := honest
    obtain ⟨found, after, ran⟩ | ⟨first, met, offers, honestAfter⟩ :=
      Replacing.of_comesDown comesDown start
    · exact Option.isSome_of_eq_some (ran _)
    · have sound : first.Sound ⟨tree.toFileSystem, config⟩ :=
        ⟨offers, honestAfter⟩
      exact (congrArg Option.isSome (met _)).trans
        (sound.isSome_replaceWithin sensitive fun rest =>
          bounded first rest ⟨empty, met⟩)

end Sensitive

end Resolver
end CommonJs
