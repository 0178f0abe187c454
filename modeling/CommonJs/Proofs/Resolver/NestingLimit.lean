import CommonJs.Proofs.Json.Size
import CommonJs.Proofs.Resolver.Nesting
import Mathlib.Algebra.Order.BigOperators.Group.Finset

/-!
# The limit on nesting

A manifest has no more entries than characters, and only the manifests of
directories that are there can be nested in others. So there are fewer entries
in a tree than the limit on nesting says, and replacements that are nested any
deeper come back to an entry. Where that does not happen, every request has an
answer.
-/

namespace CommonJs

/-! ## Entries and characters -/

/-- The targets of a browser field, with the kind of the entry that names
each. -/
def BrowserMap.entries (map : BrowserMap) : List (BrowserTarget × EntryKind) :=
  map.main.toList.map (·, .main) ++
    (map.fileEntries.map (·.2, .file) ++ map.moduleEntries.map (·.2, .module))

/-- What a map names is one of its entries. -/
theorem BrowserMap.Names.mem_entries
    {map : BrowserMap}
    {target : BrowserTarget}
    {kind : EntryKind}
    (names : map.Names target kind) : (target, kind) ∈ map.entries := by
  unfold entries
  rw [List.mem_append, List.mem_append]
  cases kind with
  | main =>
      exact .inl (List.mem_map.mpr ⟨target, Option.mem_toList.mpr names, rfl⟩)
  | file =>
      obtain ⟨path, entry⟩ := names
      obtain ⟨listed, found, rfl⟩ := Option.map_eq_some_iff.mp entry
      refine .inr (.inl (List.mem_map.mpr ⟨listed, ?_, rfl⟩))
      exact List.mem_map.mpr
        ⟨(_, listed),
          Std.TreeMap.mem_toList_iff_getElem?_eq_some.mpr found, rfl⟩
  | module =>
      obtain ⟨specifier, entry⟩ := names
      exact .inr (.inr (List.mem_map.mpr
        ⟨(specifier, target),
          Std.TreeMap.mem_toList_iff_getElem?_eq_some.mpr entry, rfl⟩))

theorem BrowserMap.length_entries (map : BrowserMap) :
    map.entries.length =
      map.main.toList.length + (map.files.size + map.modules.size) := by
  simp [entries, fileEntries, moduleEntries, Std.TreeMap.length_toList]

/-- A member comes in as one entry at most. -/
theorem BrowserMap.length_entries_addEntry_le
    (fileSystem : FileSystem)
    (directory : Path)
    (map : BrowserMap)
    (key : String)
    (value : Json) :
    (addEntry fileSystem directory map key value).entries.length ≤
      map.entries.length + 1 := by
  rw [length_entries, length_entries]
  unfold addEntry
  split
  next => omega
  next target _ =>
    split
    · have one := Std.TreeMap.size_insert_le (t := map.files)
        (k := map.fileKey (fileSystem.canonicalize (directory.child key)))
        (v := (fileSystem.canonicalize (directory.child key), target))
      dsimp only
      omega
    · have one :=
        Std.TreeMap.size_insert_le (t := map.modules) (k := key) (v := target)
      dsimp only
      omega

theorem BrowserMap.length_entries_foldl_le
    (fileSystem : FileSystem)
    (directory : Path)
    (members : List (String × Json)) :
    (members.foldl
      (fun map entry => addEntry fileSystem directory map entry.1 entry.2)
      (empty fileSystem.caseSensitive)).entries.length ≤ members.length := by
  induction members using List.reverseRecOn with
  | nil => exact Nat.le_refl _
  | append_singleton members member inductionHypothesis =>
      rw [List.foldl_append, List.length_append]
      exact (length_entries_addEntry_le _ _ _ _ _).trans
        (Nat.succ_le_succ inductionHypothesis)

/-- A browser field that is an object has no more entries than members, and any
other one has at most one. -/
theorem BrowserMap.length_entries_ofJson_le
    (fileSystem : FileSystem)
    (directory : Path)
    {field : Option Json}
    {bound : Nat}
    (few : ∀ members, field = some (.object members) → members.length ≤ bound) :
    (ofJson fileSystem directory field).entries.length ≤ bound + 1 := by
  have none : (empty fileSystem.caseSensitive).entries.length = 0 := rfl
  rcases field with _ | json
  · exact none.trans_le (Nat.zero_le _)
  · cases json with
    | object members =>
        exact (length_entries_foldl_le fileSystem directory members).trans
          ((few members rfl).trans (Nat.le_succ bound))
    | string text =>
        rw [length_entries]
        have main :
            ((BrowserTarget.ofJson? (.string text)).toList).length ≤ 1 := by
          cases BrowserTarget.ofJson? (.string text) <;> simp
        exact main.trans (Nat.le_add_left 1 bound)
    | _ => exact none.trans_le (Nat.zero_le _)

theorem FileTree.textSize_le_of_mem
    {entries : List (List Component × Node)}
    {held : List Component × Node}
    (listed : held ∈ entries) :
    held.2.entry.textSize ≤
      entries.foldr (fun entry size => entry.2.entry.textSize + size) 0 := by
  induction listed with
  | head => exact Nat.le_add_right _ _
  | tail _ _ inductionHypothesis =>
      exact inductionHypothesis.trans (Nat.le_add_left _ _)

/-- No text is longer than all texts together. -/
theorem FileTree.length_le_textSize
    {tree : FileTree}
    {path : Path}
    {text : String}
    (isRead : (tree.read path).toOption = some text) :
    text.length ≤ tree.textSize := by
  rw [toOption_read] at isRead
  obtain ⟨⟨spelling, entry⟩, found, holds⟩ := Option.bind_eq_some_iff.mp isRead
  cases entry with
  | directory => cases holds
  | file held =>
      obtain rfl := Option.some.inj holds
      have listed := Std.TreeMap.mem_toList_iff_getElem?_eq_some.mpr found
      exact textSize_le_of_mem listed

/-- A manifest of a tree has no more entries than the files of the tree have
characters, or one at least. -/
theorem FileTree.length_entries_le
    {tree : FileTree}
    {manifest : String}
    {directory : Path}
    {package : PackageDescriptor}
    (described : PackageDescriptor.read? tree.toFileSystem manifest directory =
      some package) :
    package.browser.entries.length ≤ tree.textSize + 1 := by
  rw [PackageDescriptor.read?_toFileSystem] at described
  obtain ⟨text, isRead, described⟩ := Option.bind_eq_some_iff.mp described
  obtain ⟨json, reads, isObject⟩ := Option.bind_eq_some_iff.mp described
  cases json with
  | object outer =>
      obtain rfl := Option.some.inj isObject
      refine BrowserMap.length_entries_ofJson_le _ _ fun members field => ?_
      exact (Json.length_le_of_ofText? reads field).trans
        (length_le_textSize isRead)
  | _ => cases isObject

namespace Resolver

/-! ## Entries of a tree -/

section Tree

variable {tree : FileTree} {config : ResolverConfig}

/-- The entries of the manifest in a directory. -/
def entriesAt
    (resolver : Resolver)
    (directory : Path) : Finset (BrowserTarget × EntryKind) :=
  ((PackageDescriptor.read? resolver.fileSystem resolver.config.manifest
    directory).toList.flatMap (·.browser.entries)).toFinset

/-- A directory has no more entries than its manifest has characters. -/
theorem card_entriesAt_le (directory : Path) :
    (entriesAt ⟨tree.toFileSystem, config⟩ directory).card ≤
      tree.textSize + 1 := by
  refine (List.toFinset_card_le _).trans ?_
  cases described : PackageDescriptor.read? tree.toFileSystem config.manifest
    directory with
  | none => simp
  | some package =>
      rw [Option.toList_some, List.flatMap_singleton]
      exact FileTree.length_entries_le described

/-- Directories that are led to are nodes of the tree. -/
theorem card_led_le
    (sensitive : tree.caseSensitive = true)
    {directories : Finset Path}
    (led : ∀ inner ∈ directories, ∃ outer,
      LeadsTo ⟨tree.toFileSystem, config⟩ outer inner) :
    directories.card ≤ tree.nodes.size := by
  have within : Set.MapsTo tree.key directories tree.nodes.keys.toFinset := by
    intro inner present
    obtain ⟨_, leads⟩ := led inner present
    have stands : tree.stat inner = some .directory :=
      of_decide_eq_true leads.isDirectory
    obtain ⟨node, found, _⟩ := Option.map_eq_some_iff.mp stands
    exact List.mem_toFinset.mpr (Std.TreeMap.mem_keys.mpr
      (Std.TreeMap.mem_iff_isSome_getElem?.mpr
        (Option.isSome_of_eq_some found)))
  have injective : Set.InjOn tree.key directories := by
    intro first firstPresent second secondPresent same
    obtain ⟨_, toFirst⟩ := led first firstPresent
    obtain ⟨_, toSecond⟩ := led second secondPresent
    have firstNormal := toFirst.innerHasManifest.1
    have secondNormal := toSecond.innerHasManifest.1
    rw [FileTree.key_of_sensitive sensitive,
      FileTree.key_of_sensitive sensitive, firstNormal, secondNormal] at same
    exact firstNormal.eq_of_sameWay secondNormal same
  calc directories.card
      ≤ tree.nodes.keys.toFinset.card :=
        Finset.card_le_card_of_injOn tree.key within injective
    _ ≤ tree.nodes.keys.length := List.toFinset_card_le _
    _ = tree.nodes.size := Std.TreeMap.length_keys

namespace Replacing

variable {first : Replacing} {rest : List Replacing}

/-- The entry by which a manifest names the replacement, with the place of the
manifest. -/
def entry (replacing : Replacing) : Path × BrowserTarget × EntryKind :=
  (replacing.site, replacing.target, replacing.kind)

/-- A replacement that is offered is an entry of its site. -/
theorem Sound.mem_entriesAt
    {replacing : Replacing}
    (sound : Sound ⟨tree.toFileSystem, config⟩ replacing)
    (sensitive : tree.caseSensitive = true) :
    (replacing.target, replacing.kind) ∈
      entriesAt ⟨tree.toFileSystem, config⟩ replacing.site := by
  have described := sound.offers.described.read?_normalize sensitive
  exact List.mem_toFinset.mpr (List.mem_flatMap.mpr
    ⟨_, Option.mem_toList.mpr described, sound.offers.names.mem_entries⟩)

/-- The manifests of a chain of nested replacements are in the directories of
the tree, the first one apart. -/
theorem card_sites_le
    (sensitive : tree.caseSensitive = true)
    (sound : Sound ⟨tree.toFileSystem, config⟩ first)
    (chain : List.IsChain (Nests ⟨tree.toFileSystem, config⟩) (first :: rest)) :
    ((first :: rest).map site).toFinset.card ≤ tree.nodes.size + 1 := by
  have led : ∀ inner ∈ (rest.map site).toFinset,
      ∃ outer, LeadsTo ⟨tree.toFileSystem, config⟩ outer inner :=
    fun inner present =>
      exists_leadsTo_of_mem (leadsTo_of_isChain sensitive sound chain)
        (List.mem_toFinset.mp present)
  rw [List.map_cons, List.toFinset_cons]
  exact (Finset.card_insert_le _ _).trans
    (Nat.succ_le_succ (card_led_le sensitive led))

/-- A chain of nested replacements that does not come back to an entry has no
more replacements than the tree has entries. -/
theorem length_le_of_nodup
    (sensitive : tree.caseSensitive = true)
    (sound : Sound ⟨tree.toFileSystem, config⟩ first)
    (chain : List.IsChain (Nests ⟨tree.toFileSystem, config⟩) (first :: rest))
    (distinct : ((first :: rest).map entry).Nodup) :
    (first :: rest).length ≤ (tree.nodes.size + 1) * (tree.textSize + 1) := by
  let resolver : Resolver := ⟨tree.toFileSystem, config⟩
  let sites := ((first :: rest).map site).toFinset
  have among : ((first :: rest).map entry).toFinset ⊆
      sites.biUnion fun place =>
        (resolver.entriesAt place).image (Prod.mk place) := by
    intro named present
    obtain ⟨replacing, listed, rfl⟩ :=
      List.mem_map.mp (List.mem_toFinset.mp present)
    refine Finset.mem_biUnion.mpr
      ⟨replacing.site, ?_, Finset.mem_image.mpr ⟨_, ?_, rfl⟩⟩
    · exact List.mem_toFinset.mpr (List.mem_map_of_mem listed)
    · exact (sound_of_isChain sensitive sound chain replacing
        listed).mem_entriesAt sensitive
  calc (first :: rest).length
      = ((first :: rest).map entry).toFinset.card := by
        rw [List.toFinset_card_of_nodup distinct, List.length_map]
    _ ≤ (sites.biUnion fun place =>
        (resolver.entriesAt place).image (Prod.mk place)).card :=
        Finset.card_le_card among
    _ ≤ sites.card * (tree.textSize + 1) :=
        Finset.card_biUnion_le_card_mul sites _ _ fun place _ =>
          Finset.card_image_le.trans (card_entriesAt_le place)
    _ ≤ (tree.nodes.size + 1) * (tree.textSize + 1) :=
        Nat.mul_le_mul_right _ (card_sites_le sensitive sound chain)

end Replacing

/-- The limit on nesting leaves no request without an answer but those whose
replacements come back to an entry. -/
theorem resolve_returns_of_nodup
    (sensitive : tree.caseSensitive = true)
    {memo : DescriptorMemo}
    (remembers : Remembers ⟨tree.toFileSystem, config⟩ memo)
    {context : Path}
    {specifier : String}
    {origin : Option Path}
    (distinct : ∀ first rest,
      Replacing.Begins ⟨tree.toFileSystem, config⟩ memo context specifier
        origin first →
      List.IsChain (Replacing.Nests ⟨tree.toFileSystem, config⟩)
          (first :: rest) →
        ((first :: rest).map Replacing.entry).Nodup) :
    ∃ result next,
      resolve ⟨tree.toFileSystem, config⟩ memo context specifier origin =
        some (result, next) := by
  have answered :
      (resolve ⟨tree.toFileSystem, config⟩ memo context specifier
        origin).isSome = true := by
    refine isSome_resolveWithin sensitive remembers.honest
      fun first rest begins chain => ?_
    have within := Replacing.length_le_of_nodup sensitive
      (begins.sound remembers.honest) chain (distinct first rest begins chain)
    change rest.length < 64 * ((tree.nodes.size + 1) * (tree.textSize + 1))
    rw [List.length_cons] at within
    omega
  obtain ⟨⟨result, next⟩, outcome⟩ := Option.isSome_iff_exists.mp answered
  exact ⟨result, next, outcome⟩

end Tree

end Resolver
end CommonJs
