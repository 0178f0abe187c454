import CommonJs.Proofs.Path.Below
import CommonJs.Proofs.Resolver.NestingLimit
import Mathlib.Data.Set.Card

/-!
# Manifests without a circle

Where the steps from manifest to manifest do not go round in a circle, no
manifest is met twice in a chain of nested replacements. So every request has
an answer, and replacements are nested no deeper than there are directories
with a manifest.
-/

namespace CommonJs
namespace Resolver

section Sensitive

variable {tree : FileTree} {config : ResolverConfig}

/-- No sequence of steps from manifest to manifest comes back to where it
began. -/
def Acyclic (resolver : Resolver) : Prop :=
  ∀ directory, ¬ Relation.TransGen resolver.LeadsTo directory directory

/-- A chain that comes back to a directory is a circle. -/
theorem Acyclic.nodup
    {resolver : Resolver}
    (acyclic : resolver.Acyclic)
    {directories : List Path}
    (chain : List.IsChain resolver.LeadsTo directories) :
    directories.Nodup := by
  have leads : directories.Pairwise (Relation.TransGen resolver.LeadsTo) :=
    (chain.imp fun _ _ => .single).pairwise
  refine leads.imp fun {first second} leads same => ?_
  rw [same] at leads
  exact acyclic second leads

namespace Replacing

variable {first : Replacing} {rest : List Replacing}

/-- The replacements of a chain come from different manifests. -/
theorem nodup_sites
    (acyclic : Acyclic ⟨tree.toFileSystem, config⟩)
    (sensitive : tree.caseSensitive = true)
    (sound : Sound ⟨tree.toFileSystem, config⟩ first)
    (chain : List.IsChain (Nests ⟨tree.toFileSystem, config⟩) (first :: rest)) :
    ((first :: rest).map site).Nodup :=
  acyclic.nodup (leadsTo_of_isChain sensitive sound chain)

/-- A chain has no more replacements than there are directories with a
manifest. -/
theorem length_le_encard
    (acyclic : Acyclic ⟨tree.toFileSystem, config⟩)
    (sensitive : tree.caseSensitive = true)
    (sound : Sound ⟨tree.toFileSystem, config⟩ first)
    (chain : List.IsChain (Nests ⟨tree.toFileSystem, config⟩) (first :: rest)) :
    ((first :: rest).length : ℕ∞) ≤
      (manifestDirectories ⟨tree.toFileSystem, config⟩).encard := by
  have distinct := nodup_sites acyclic sensitive sound chain
  rw [← List.length_map site, ← List.toFinset_card_of_nodup distinct,
    ← Set.encard_coe_eq_coe_finsetCard]
  refine Set.encard_le_encard fun directory present => ?_
  obtain ⟨replacing, listed, rfl⟩ :=
    List.mem_map.mp (List.mem_toFinset.mp (Finset.mem_coe.mp present))
  have offered :=
    (sound_of_isChain sensitive sound chain replacing listed).offers
  exact offered.described.hasManifest sensitive

end Replacing

/-- When the targets of browser fields do not lead from manifest to manifest in
a circle, a request in a tree that tells letters of different case apart always
has an answer, whatever was asked before. The replacements it takes are nested
in one another no deeper than there are directories with a manifest. -/
theorem resolve_returns_of_acyclic
    (sensitive : tree.caseSensitive = true)
    (acyclic : Acyclic ⟨tree.toFileSystem, config⟩)
    {memo : DescriptorMemo}
    (remembers : Remembers ⟨tree.toFileSystem, config⟩ memo)
    (context : Path)
    (specifier : String)
    (origin : Option Path) :
    (∃ result next,
      resolve ⟨tree.toFileSystem, config⟩ memo context specifier origin =
        some (result, next)) ∧
      ∀ first rest,
        Replacing.Begins ⟨tree.toFileSystem, config⟩ memo context specifier
          origin first →
        List.IsChain (Replacing.Nests ⟨tree.toFileSystem, config⟩)
          (first :: rest) →
        ((first :: rest).length : ℕ∞) ≤
          (manifestDirectories ⟨tree.toFileSystem, config⟩).encard := by
  refine ⟨resolve_returns_of_nodup sensitive remembers
    fun first rest begins chain => ?_,
    fun first rest begins chain =>
      Replacing.length_le_encard acyclic sensitive
        (begins.sound remembers.honest) chain⟩
  -- Manifests that are different have different entries.
  have sites := Replacing.nodup_sites acyclic sensitive
    (begins.sound remembers.honest) chain
  refine List.Nodup.of_map Prod.fst ?_
  rw [List.map_map]
  exact sites

end Sensitive

/-! ### A package inside a package -/

/-- A package that replaces a file by a directory, whose own manifest replaces
its main file. -/
def packageInPackage : FileTree :=
  ((FileTree.empty.insertFile (.ofString "/p/package.json")
    "\x7b\"browser\":\x7b\"./a.js\":\"lib\"\x7d\x7d").insertFile
    (.ofString "/p/lib/package.json") "\x7b\"browser\":\"b.js\"\x7d").insertFile
    (.ofString "/p/lib/b.js") ""

theorem mem_directories_packageInPackage
    {directory : Path}
    (normal : directory.IsNormal)
    (isDirectory : packageInPackage.toFileSystem.isDirectory directory = true) :
    directory = .ofString "/" ∨ directory = .ofString "/p" ∨
      directory = .ofString "/p/lib" := by
  have built : packageInPackage.Built :=
    .insertFile _ _ (.insertFile _ _ (.insertFile _ _ .empty))
  have stands : packageInPackage.stat directory = some .directory :=
    of_decide_eq_true isDirectory
  obtain ⟨node, found, kind⟩ := Option.map_eq_some_iff.mp stands
  have spelled : node.path = directory := by
    obtain ⟨nodeNormal, sameKey⟩ := built.keyed _ node found
    rw [FileTree.key_of_sensitive rfl, FileTree.key_of_sensitive rfl, normal,
        nodeNormal]
      at sameKey
    exact nodeNormal.eq_of_sameWay normal sameKey.symm
  have listed :
      ∀ entry ∈ packageInPackage.nodes.toList, entry.2.entry = .directory →
        entry.2.path = .ofString "/" ∨ entry.2.path = .ofString "/p" ∨
          entry.2.path = .ofString "/p/lib" := by
    decide +kernel
  rw [← spelled]
  refine listed (_, node)
    (Std.TreeMap.mem_toList_iff_getElem?_eq_some.mpr found) ?_
  cases isEntry : node.entry with
  | file text => simp [isEntry] at kind
  | directory => rfl

/-- The one step from manifest to manifest that begins at a directory of the
tree. -/
theorem leadsTo_packageInPackage
    {directory inner : Path}
    (isDirectory : packageInPackage.toFileSystem.isDirectory directory = true)
    (leads :
      LeadsTo ⟨packageInPackage.toFileSystem, .standard⟩ directory inner) :
    directory = .ofString "/p" ∧ inner = .ofString "/p/lib" := by
  obtain ⟨package, target, kind, described, names, canName⟩ := leads.names
  have named := names.mem_entries
  have inTree :=
    mem_directories_packageInPackage leads.innerHasManifest.1 leads.isDirectory
  have entries (place : String) :
      .ofString place = directory →
        (PackageDescriptor.read? packageInPackage.toFileSystem "package.json"
            (.ofString place)).map (·.browser.entries) =
              some package.browser.entries := by
    rintro rfl
    exact congrArg (Option.map _) described
  -- A directory that a plain name can name ends in that name.
  have ends
      {name : String}
      {only : EntryKind}
      (isEntry : package.browser.entries = [(.path name, only)])
      (plain : (Path.ofString name).isAbsolute = false ∧
        (Path.ofString name).steps = [.name name.toList] ∧
          Specifier.split name = (name, none)) :
      inner.fileName = some name.toList := by
    obtain ⟨relative, step, whole⟩ := plain
    rw [isEntry, List.mem_singleton] at named
    obtain rfl := BrowserTarget.path.inj (Prod.mk.inj named).1
    cases canName with
    | path => exact Path.fileName_normalize_child _ relative step
    | package above _ =>
        rw [whole]
        exact Path.fileName_normalize_child _ relative step
    | inside above _ isInside =>
        rw [whole] at isInside
        cases isInside
  rcases mem_directories_packageInPackage leads.hasManifest.1 isDirectory
    with rfl | rfl | rfl
  · have none := entries "/" rfl
    rw [show (PackageDescriptor.read? packageInPackage.toFileSystem
      "package.json" (.ofString "/")).map (·.browser.entries) =
        Option.none by decide +kernel] at none
    cases none
  · have isEntry := entries "/p" rfl
    rw [show (PackageDescriptor.read? packageInPackage.toFileSystem
      "package.json" (.ofString "/p")).map (·.browser.entries) =
        some [(.path "lib", .file)] by decide +kernel] at isEntry
    have ended := ends (Option.some.inj isEntry).symm (by decide +kernel)
    refine ⟨rfl, ?_⟩
    rcases inTree with rfl | rfl | rfl
    · exact absurd ended (by decide +kernel)
    · exact absurd ended (by decide +kernel)
    · rfl
  · have isEntry := entries "/p/lib" rfl
    rw [show (PackageDescriptor.read? packageInPackage.toFileSystem
      "package.json" (.ofString "/p/lib")).map (·.browser.entries) =
        some [(.path "b.js", .main)] by decide +kernel] at isEntry
    have ended := ends (Option.some.inj isEntry).symm (by decide +kernel)
    exact absurd ended
      (by rcases inTree with rfl | rfl | rfl <;> decide +kernel)

/-- The targets of the package lead into it, but none leads out again. -/
theorem acyclic_packageInPackage :
    Acyclic ⟨packageInPackage.toFileSystem, .standard⟩ := by
  intro directory circle
  obtain ⟨_, _, last⟩ := Relation.TransGen.tail'_iff.mp circle
  obtain ⟨inner, first, rest⟩ := Relation.TransGen.head'_iff.mp circle
  obtain ⟨rfl, rfl⟩ := leadsTo_packageInPackage last.isDirectory first
  obtain same | ⟨_, second, _⟩ := Relation.ReflTransGen.cases_head rest
  · exact absurd same (by decide +kernel)
  · exact absurd (leadsTo_packageInPackage first.isDirectory second).1
      (by decide +kernel)

/-- A request in the small tree is answered after two replacements, the second
one nested in the first. -/
theorem resolve_returns_of_acyclic_packageInPackage :
    (∃ result next,
      resolve ⟨packageInPackage.toFileSystem, .standard⟩ .empty (.ofString "/p")
            "./a.js" none =
          some (result, next) ∧
        result.resolution = .path (.ofString "/p/lib/b.js")) ∧
      ∃ first rest,
        Replacing.Begins ⟨packageInPackage.toFileSystem, .standard⟩ .empty
            (.ofString "/p") "./a.js" none first ∧
          List.IsChain
            (Replacing.Nests ⟨packageInPackage.toFileSystem, .standard⟩)
            (first :: rest) ∧
          2 ≤ (first :: rest).length ∧
          ((first :: rest).length : ℕ∞) ≤
            (manifestDirectories
              ⟨packageInPackage.toFileSystem, .standard⟩).encard := by
  have sensitive : packageInPackage.caseSensitive = true := rfl
  obtain ⟨⟨result, next, outcome⟩, bounded⟩ :=
    resolve_returns_of_acyclic sensitive acyclic_packageInPackage .nothing
      (.ofString "/p") "./a.js" none
  have leads :
      (resolve ⟨packageInPackage.toFileSystem, .standard⟩ .empty
          (.ofString "/p") "./a.js"
          none).map (·.1.resolution) =
            some (.path (.ofString "/p/lib/b.js")) := by
    decide +kernel
  have unanswered :
      (resolveWithin ⟨packageInPackage.toFileSystem, .standard⟩ 1
          (some triedLimit) .empty
          (.ofString "/p") "./a.js" none).isSome = false := by
    decide +kernel
  rw [outcome] at leads
  refine ⟨⟨result, next, outcome, Option.some.inj leads⟩, ?_⟩
  by_contra short
  refine Bool.false_ne_true (unanswered.symm.trans
    (isSome_resolveWithin sensitive DescriptorMemo.honest_empty
      fun first rest begins chain => ?_))
  by_contra long
  refine short ⟨first, rest, begins, chain, ?_, bounded first rest begins chain⟩
  rw [List.length_cons]
  omega

end Resolver
end CommonJs
