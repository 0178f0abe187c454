import CommonJs.Proofs.Json.Ordered
import CommonJs.Proofs.Package.Recased

/-!
# Which entry a path hits

The file entries of a browser field are kept under canonical paths, and a
candidate is looked up under its own. In a tree both come down to one thing:
the key of an entry, read from the directory of the manifest, and the
candidate have one key in the tree, whether a file stands there or not. Where
several entries have that key, the one read last counts.
-/

namespace CommonJs

/-- The target that a value of a manifest is written for: a text that is not
empty, or `false`. -/
inductive BrowserTarget.Written : Json → BrowserTarget → Prop
  | path {text : String} : text ≠ "" → Written (.string text) (.path text)
  | stub : Written (.bool false) .stub

/-- A target is read where one is written. -/
theorem BrowserTarget.ofJson?_eq_some_iff
    {value : Json}
    {target : BrowserTarget} :
    ofJson? value = some target ↔ Written value target := by
  constructor
  · intro names
    unfold ofJson? at names
    split at names
    · split at names
      · cases names
      next nonempty => exact Option.some.inj names ▸ .path nonempty
    · exact Option.some.inj names ▸ .stub
    · cases names
  · rintro (nonempty | _)
    · exact if_neg nonempty
    · rfl

namespace BrowserMap

/-! ## The entry read last -/

section Lookup

variable (tree : FileTree) (directory : Path)

/-- What a member of a browser field says of the file under a key: the
canonical path that it names, and the target. -/
def fileMember?
    (key : List Component)
    (member : String × Json) : Option (Path × BrowserTarget) :=
  if isFileKey member.1 = true ∧ tree.key (directory.child member.1) = key then
    (BrowserTarget.ofJson? member.2).map
      (tree.canonicalize (directory.child member.1), ·)
  else none

/-- What a member of a browser field says of a module. -/
def moduleMember?
    (specifier : String)
    (member : String × Json) : Option BrowserTarget :=
  if isFileKey member.1 = false ∧ member.1 = specifier then
    BrowserTarget.ofJson? member.2
  else none

variable {tree directory} {map : BrowserMap}

/-- One more member is asked first, and then what was there. -/
theorem files_addEntry
    (keyed : tree.Keyed)
    (sameCase : map.caseSensitive = tree.caseSensitive)
    (member : String × Json)
    (key : List Component) :
    (addEntry tree.toFileSystem directory map member.1 member.2).files[key]? =
      (fileMember? tree directory key member).or map.files[key]? := by
  unfold addEntry fileMember?
  cases BrowserTarget.ofJson? member.2 with
  | none => simp
  | some target =>
      by_cases isFile : isFileKey member.1 = true
      · have ownKey :
            map.fileKey
                (tree.toFileSystem.canonicalize (directory.child member.1)) =
              tree.key (directory.child member.1) :=
          fileKey_canonicalize keyed sameCase _
        simp only [isFile, if_true, true_and, Std.TreeMap.getElem?_insert,
          ownKey, Std.compare_eq_iff_eq]
        split
        · rfl
        · rfl
      · simp [isFile]

/-- An entry for a module takes the place of an earlier one. -/
theorem modules_addEntry (member : String × Json) (specifier : String) :
    (addEntry tree.toFileSystem directory map member.1
        member.2).modules[specifier]? =
      (moduleMember? specifier member).or map.modules[specifier]? := by
  unfold addEntry moduleMember?
  cases BrowserTarget.ofJson? member.2 with
  | none => simp
  | some target =>
      by_cases isFile : isFileKey member.1 = true
      · simp [isFile]
      · simp only [isFile, Bool.false_eq_true, if_false, true_and,
          Std.TreeMap.getElem?_insert, Std.compare_eq_iff_eq]
        split
        · rfl
        · rfl

@[simp] theorem caseSensitive_addEntry
    (fileSystem : FileSystem)
    (directory : Path)
    (map : BrowserMap)
    (key : String)
    (value : Json) :
    (addEntry fileSystem directory map key value).caseSensitive =
      map.caseSensitive := by
  unfold addEntry
  split
  · rfl
  · split
    · rfl
    · rfl

@[simp] theorem caseSensitive_foldl_addEntry
    (fileSystem : FileSystem)
    (directory : Path)
    (members : List (String × Json))
    (map : BrowserMap) :
    (members.foldl
      (fun map entry => addEntry fileSystem directory map entry.1 entry.2)
      map).caseSensitive = map.caseSensitive :=
  List.foldlRecOn (motive :=
      fun (later : BrowserMap) => later.caseSensitive = map.caseSensitive)
    members _ rfl fun _ same _ _ => (caseSensitive_addEntry ..).trans same

@[simp] theorem caseSensitive_ofJson
    (fileSystem : FileSystem)
    (directory : Path)
    (field : Option Json) :
    (ofJson fileSystem directory field).caseSensitive =
      fileSystem.caseSensitive := by
  unfold ofJson
  split
  · rfl
  · exact caseSensitive_foldl_addEntry ..
  · rfl

/-- An entry of an object leaves the main file as it is. -/
@[simp] theorem main_addEntry
    (fileSystem : FileSystem)
    (directory : Path)
    (map : BrowserMap)
    (key : String)
    (value : Json) :
    (addEntry fileSystem directory map key value).main = map.main := by
  unfold addEntry
  split
  · rfl
  · split
    · rfl
    · rfl

/-- The main file is replaced by another, if it is: only a text replaces it. -/
theorem main_ofJson_ne_stub
    (fileSystem : FileSystem)
    (directory : Path)
    (field : Option Json) :
    (ofJson fileSystem directory field).main ≠ some .stub := by
  unfold ofJson
  split
  next text =>
    dsimp only [BrowserTarget.ofJson?]
    split
    · simp
    · simp
  next members =>
    have noMain :
        (members.foldl
          (fun map entry => addEntry fileSystem directory map entry.1 entry.2)
          (empty fileSystem.caseSensitive)).main = none :=
      List.foldlRecOn (motive := fun (map : BrowserMap) => map.main = none)
        members _ rfl fun _ noMain _ _ => (main_addEntry ..).trans noMain
    simp [noMain]
  next => simp [empty]

theorem findSome?_cons_eq_or
    {α β : Type}
    (test : α → Option β)
    (first : α)
    (others : List α) :
    (first :: others).findSome? test =
      (test first).or (others.findSome? test) := by
  rw [List.findSome?_cons]
  cases test first <;> rfl

/-- What is looked up in a browser field is what the last member says that says
anything of it, if each member that is added is asked before those that were
there. The induction takes members away from the end of the object. -/
theorem lookup_ofJson
    {α : Type}
    (lookup : BrowserMap → Option α)
    (tells : String × Json → Option α)
    (nothing : lookup (empty tree.caseSensitive) = none)
    (asked : ∀ (map : BrowserMap) (member : String × Json),
      map.caseSensitive = tree.caseSensitive →
        lookup (addEntry tree.toFileSystem directory map member.1 member.2) =
          (tells member).or (lookup map))
    (members : List (String × Json)) :
    lookup (ofJson tree.toFileSystem directory (some (.object members))) =
      members.reverse.findSome? tells := by
  unfold ofJson
  dsimp only
  induction members using List.reverseRecOn with
  | nil => exact nothing
  | append_singleton members last inductionHypothesis =>
      rw [List.foldl_append, List.foldl_cons, List.foldl_nil,
        List.reverse_concat, findSome?_cons_eq_or, ← inductionHypothesis]
      exact asked _ last (caseSensitive_foldl_addEntry ..)

/-- The last entry for a key counts. -/
theorem files_ofJson
    (keyed : tree.Keyed)
    (members : List (String × Json))
    (key : List Component) :
    (ofJson tree.toFileSystem directory (some (.object members))).files[key]? =
      members.reverse.findSome? (fileMember? tree directory key) :=
  lookup_ofJson (·.files[key]?) _ Std.TreeMap.getElem?_emptyc
    (fun _ member sameCase => files_addEntry keyed sameCase member key) members

/-- The last entry for a module counts. -/
theorem module?_ofJson (members : List (String × Json)) (specifier : String) :
    (ofJson tree.toFileSystem directory (some (.object members))).module?
        specifier =
      members.reverse.findSome? (moduleMember? specifier) :=
  lookup_ofJson (·.module? specifier) _ Std.TreeMap.getElem?_emptyc
    (fun _ member _ => modules_addEntry member specifier) members

end Lookup

/-! ## Entries that match a path -/

section Matching

variable (tree : FileTree) (directory : Path) (members : List (String × Json))

/-- An entry of a browser field that is for the file at a path: its key names
a file that has the key of the path in the tree, and a target is written for
it. -/
structure Replaces
    (path : Path)
    (key : String)
    (target : BrowserTarget) : Prop where
  /-- The key has the form of a path. -/
  isFile : isFileKey key = true
  /-- It leads to the file. -/
  sameKey : tree.key (directory.child key) = tree.key path
  /-- The object has the entry. -/
  written : ∃ value, (key, value) ∈ members ∧ BrowserTarget.Written value target

/-- The last entry for the file at a path, in the order of keys. -/
structure Governs (path : Path) (key : String) (target : BrowserTarget) : Prop
    extends Replaces tree directory members path key target where
  /-- No other entry for the file has a greater key. -/
  last : ∀ other otherTarget,
    Replaces tree directory members path other otherTarget → other ≤ key

/-- An entry for a module, which is any other key that a target is written
for. -/
structure ReplacesModule
    (specifier : String)
    (target : BrowserTarget) : Prop where
  /-- The key does not have the form of a path. -/
  isModule : isFileKey specifier = false
  /-- The object has the entry. -/
  written : ∃ value, (specifier, value) ∈ members ∧
    BrowserTarget.Written value target

variable {tree directory members}
variable {path spelling : Path} {specifier : String} {target : BrowserTarget}

/-- An entry is for all paths with one key. -/
theorem Replaces.of_key_eq
    {other : Path}
    {key : String}
    (replaces : Replaces tree directory members path key target)
    (same : tree.key path = tree.key other) :
    Replaces tree directory members other key target :=
  ⟨replaces.isFile, replaces.sameKey.trans same, replaces.written⟩

/-- Only the key of a path in the tree counts. -/
theorem Governs.of_key_eq
    {other : Path}
    {key : String}
    (governs : Governs tree directory members path key target)
    (same : tree.key path = tree.key other) :
    Governs tree directory members other key target :=
  ⟨governs.toReplaces.of_key_eq same, fun later laterTarget replaces =>
    governs.last later laterTarget (replaces.of_key_eq same.symm)⟩

/-- A member becomes a file entry if it has the form of one. -/
theorem fileMember?_eq_some_iff
    {key : List Component}
    {member : String × Json} :
    fileMember? tree directory key member = some (spelling, target) ↔
      (isFileKey member.1 = true ∧ tree.key (directory.child member.1) = key) ∧
        BrowserTarget.Written member.2 target ∧
          spelling = tree.canonicalize (directory.child member.1) := by
  unfold fileMember?
  split_ifs with isEntry
  · rw [Option.map_eq_some_iff]
    simp only [Prod.mk.injEq, BrowserTarget.ofJson?_eq_some_iff, isEntry,
      and_self, true_and]
    constructor
    · rintro ⟨_, written, rfl, rfl⟩
      exact ⟨written, rfl⟩
    · rintro ⟨written, rfl⟩
      exact ⟨target, written, rfl, rfl⟩
  · simp [isEntry]

theorem isSome_fileMember?_iff {member : String × Json} :
    (fileMember? tree directory (tree.key path) member).isSome ↔
      (isFileKey member.1 = true ∧
          tree.key (directory.child member.1) = tree.key path) ∧
        ∃ target, BrowserTarget.Written member.2 target := by
  rw [Option.isSome_iff_exists]
  constructor
  · rintro ⟨⟨spelling, target⟩, found⟩
    obtain ⟨isEntry, written, _⟩ := fileMember?_eq_some_iff.mp found
    exact ⟨isEntry, target, written⟩
  · rintro ⟨isEntry, target, written⟩
    exact ⟨_, fileMember?_eq_some_iff.mpr ⟨isEntry, written, rfl⟩⟩

/-- The key of a path holds the target of the last entry for it, under the
path that this entry names. -/
theorem files_ofJson_eq_some_iff
    (keyed : tree.Keyed)
    (ascending : Json.Ascending members) :
    (ofJson tree.toFileSystem directory
          (some (.object members))).files[tree.key path]? =
        some (spelling, target) ↔
      ∃ key, Governs tree directory members path key target ∧
        spelling = tree.canonicalize (directory.child key) := by
  rw [files_ofJson keyed, ascending.findSome?_reverse_eq_some_iff]
  constructor
  · rintro ⟨⟨key, value⟩, present, found, greatest⟩
    obtain ⟨⟨isFile, sameKey⟩, written, named⟩ :=
      fileMember?_eq_some_iff.mp found
    refine ⟨key, ⟨⟨isFile, sameKey, value, present, written⟩, ?_⟩, named⟩
    rintro other otherTarget
      ⟨otherIsFile, otherSame, otherValue, otherPresent, otherWritten⟩
    exact greatest _ otherPresent
      (isSome_fileMember?_iff.mpr
        ⟨⟨otherIsFile, otherSame⟩, otherTarget, otherWritten⟩)
  · rintro ⟨key, ⟨⟨isFile, sameKey, value, present, written⟩, last⟩, named⟩
    refine ⟨(key, value), present,
      fileMember?_eq_some_iff.mpr ⟨⟨isFile, sameKey⟩, written, named⟩, ?_⟩
    rintro ⟨other, otherValue⟩ otherPresent found
    obtain ⟨⟨otherIsFile, otherSame⟩, otherTarget, otherWritten⟩ :=
      isSome_fileMember?_iff.mp found
    exact last other otherTarget
      ⟨otherIsFile, otherSame, otherValue, otherPresent, otherWritten⟩

/-- A canonical path is looked up under the key of the path. -/
theorem file?_canonicalize
    {map : BrowserMap}
    (keyed : tree.Keyed)
    (sameCase : map.caseSensitive = tree.caseSensitive)
    (path : Path) :
    map.file? (tree.canonicalize path) =
      map.files[tree.key path]?.map (·.2) := by
  rw [file?, fileKey_canonicalize keyed sameCase]

/-- A file is replaced by the entry that governs it. -/
theorem file?_ofJson_eq_some_iff
    (keyed : tree.Keyed)
    (ascending : Json.Ascending members) :
    (ofJson tree.toFileSystem directory (some (.object members))).file?
        (tree.canonicalize path) = some target ↔
      ∃ key, Governs tree directory members path key target := by
  rw [file?_canonicalize keyed (caseSensitive_ofJson ..),
    Option.map_eq_some_iff]
  constructor
  · rintro ⟨⟨spelling, _⟩, held, rfl⟩
    obtain ⟨key, governs, _⟩ :=
      (files_ofJson_eq_some_iff keyed ascending).mp held
    exact ⟨key, governs⟩
  · rintro ⟨key, governs⟩
    exact ⟨_,
      (files_ofJson_eq_some_iff keyed ascending).mpr ⟨key, governs, rfl⟩, rfl⟩

/-- A file without an entry is not replaced. -/
theorem file?_ofJson_eq_none_iff
    (keyed : tree.Keyed)
    (members : List (String × Json)) :
    (ofJson tree.toFileSystem directory (some (.object members))).file?
        (tree.canonicalize path) = none ↔
      ∀ key target, ¬ Replaces tree directory members path key target := by
  rw [file?_canonicalize keyed (caseSensitive_ofJson ..),
    Option.map_eq_none_iff, files_ofJson keyed, List.findSome?_eq_none_iff]
  constructor
  · rintro silent key target ⟨isFile, sameKey, value, present, written⟩
    have found :
        fileMember? tree directory (tree.key path) (key, value) =
          some (tree.canonicalize (directory.child key), target) :=
      fileMember?_eq_some_iff.mpr ⟨⟨isFile, sameKey⟩, written, rfl⟩
    rw [silent (key, value) (List.mem_reverse.mpr present)] at found
    cases found
  · intro unreplaced member present
    refine Option.eq_none_iff_forall_ne_some.mpr fun ⟨spelling, target⟩
      found => ?_
    obtain ⟨⟨isFile, sameKey⟩, written, _⟩ := fileMember?_eq_some_iff.mp found
    exact unreplaced member.1 target
      ⟨isFile, sameKey, member.2, List.mem_reverse.mp present, written⟩

/-- The entries listed are those kept under a key. -/
theorem mem_fileEntries_iff {map : BrowserMap} {entry : Path × BrowserTarget} :
    entry ∈ map.fileEntries ↔
      ∃ key : List Component, map.files[key]? = some entry := by
  simp only [fileEntries, List.mem_map, Prod.exists, exists_eq_right,
    Std.TreeMap.mem_toList_iff_getElem?_eq_some]

/-- Each file entry is kept under the key of the path that it is listed
under. -/
theorem eq_key_of_files_ofJson
    (keyed : tree.Keyed)
    {field : Option Json}
    {key : List Component}
    {entry : Path × BrowserTarget}
    (held : (ofJson tree.toFileSystem directory field).files[key]? =
      some entry) :
    key = tree.key entry.1 := by
  match field with
  | some (.object members) =>
      rw [files_ofJson keyed] at held
      obtain ⟨member, _, found⟩ := List.exists_of_findSome?_eq_some held
      obtain ⟨spelling, target⟩ := entry
      obtain ⟨⟨_, rfl⟩, _, rfl⟩ := fileMember?_eq_some_iff.mp found
      exact (FileTree.key_canonicalize keyed _).symm
  | none | some .null | some (.bool _) | some (.number _) | some (.string _)
  | some (.array _) => simp [ofJson, empty] at held

/-- The listed file entries are the last ones for the paths that they name. -/
theorem mem_fileEntries_ofJson_iff
    (keyed : tree.Keyed)
    (ascending : Json.Ascending members) :
    (spelling, target) ∈
        (ofJson tree.toFileSystem directory
          (some (.object members))).fileEntries ↔
      ∃ key, Governs tree directory members (directory.child key) key target ∧
        spelling = tree.canonicalize (directory.child key) := by
  rw [mem_fileEntries_iff]
  constructor
  · rintro ⟨stored, held⟩
    rw [eq_key_of_files_ofJson keyed held] at held
    obtain ⟨key, governs, named⟩ :=
      (files_ofJson_eq_some_iff keyed ascending).mp held
    exact ⟨key, governs.of_key_eq governs.sameKey.symm, named⟩
  · rintro ⟨key, governs, named⟩
    exact ⟨_,
      (files_ofJson_eq_some_iff keyed ascending).mpr ⟨key, governs, named⟩⟩

/-- No two of the listed file entries are for one path. -/
theorem pairwise_fileEntries_ofJson
    (keyed : tree.Keyed)
    (field : Option Json) :
    (ofJson tree.toFileSystem directory field).fileEntries.Pairwise
      fun entry other => tree.key entry.1 ≠ tree.key other.1 := by
  refine List.pairwise_map.mpr (Std.TreeMap.distinct_keys_toList.imp_of_mem ?_)
  intro entry other present otherPresent distinct same
  have held := Std.TreeMap.mem_toList_iff_getElem?_eq_some.mp present
  have otherHeld := Std.TreeMap.mem_toList_iff_getElem?_eq_some.mp otherPresent
  rw [eq_key_of_files_ofJson keyed held, eq_key_of_files_ofJson keyed otherHeld,
    same] at distinct
  exact distinct Std.ReflCmp.compare_self

/-- The entry for a path is the one that is listed under a path with its
key. -/
theorem file?_ofJson_eq_some_iff_mem
    (keyed : tree.Keyed)
    (field : Option Json) :
    (ofJson tree.toFileSystem directory field).file? (tree.canonicalize path) =
        some target ↔
      ∃ entry ∈ (ofJson tree.toFileSystem directory field).fileEntries,
        entry.2 = target ∧ tree.key entry.1 = tree.key path := by
  rw [file?_canonicalize keyed (caseSensitive_ofJson ..),
    Option.map_eq_some_iff]
  constructor
  · rintro ⟨entry, held, isTarget⟩
    exact ⟨entry, mem_fileEntries_iff.mpr ⟨_, held⟩, isTarget,
      (eq_key_of_files_ofJson keyed held).symm⟩
  · rintro ⟨entry, listed, isTarget, sameKey⟩
    obtain ⟨key, held⟩ := mem_fileEntries_iff.mp listed
    rw [eq_key_of_files_ofJson keyed held, sameKey] at held
    exact ⟨entry, held, isTarget⟩

theorem moduleMember?_eq_some_iff {member : String × Json} :
    moduleMember? specifier member = some target ↔
      (isFileKey member.1 = false ∧ member.1 = specifier) ∧
        BrowserTarget.Written member.2 target := by
  unfold moduleMember?
  split_ifs with isEntry
  · rw [BrowserTarget.ofJson?_eq_some_iff, and_iff_right isEntry]
  · simp [isEntry]

/-- A module is replaced by the one entry with its name. -/
theorem module?_ofJson_eq_some_iff
    (ascending : Json.Ascending members) :
    (ofJson tree.toFileSystem directory (some (.object members))).module?
          specifier =
        some target ↔
      ReplacesModule members specifier target := by
  rw [module?_ofJson, ascending.findSome?_reverse_eq_some_iff]
  constructor
  · rintro ⟨⟨_, value⟩, present, found, _⟩
    obtain ⟨⟨isModule, rfl⟩, written⟩ := moduleMember?_eq_some_iff.mp found
    exact ⟨isModule, value, present, written⟩
  · rintro ⟨isModule, value, present, written⟩
    refine ⟨(specifier, value), present,
      moduleMember?_eq_some_iff.mpr ⟨⟨isModule, rfl⟩, written⟩,
        fun other _ found => ?_⟩
    obtain ⟨otherTarget, found⟩ := Option.isSome_iff_exists.mp found
    exact (moduleMember?_eq_some_iff.mp found).1.2.le

end Matching

end BrowserMap

/-! ## The entries of a manifest -/

namespace PackageDescriptor

open BrowserMap

/-- The browser field of a manifest that is read is that of some value. -/
theorem exists_field_of_read?
    {fileSystem : FileSystem}
    {manifest : String}
    {directory : Path}
    {package : PackageDescriptor}
    (described : read? fileSystem manifest directory = some package) :
    ∃ field,
      package.browser = BrowserMap.ofJson fileSystem directory field := by
  unfold read? at described
  dsimp only at described
  split at described
  · split at described
    next text _ =>
      obtain ⟨json, _, made⟩ := Option.bind_eq_some_iff.mp described
      cases json with
      | object members =>
          exact ⟨Json.member? members "browser", by rw [← Option.some.inj made]⟩
      | _ => cases made
    next => cases described
  · cases described

/-- A file entry of a manifest is for a path if the two have one key in the
tree. -/
theorem file?_eq_some_iff_of_read?
    {tree : FileTree}
    (keyed : tree.Keyed)
    {manifest : String}
    {directory : Path}
    {package : PackageDescriptor}
    (described : read? tree.toFileSystem manifest directory = some package)
    (path : Path)
    (target : BrowserTarget) :
    package.browser.file? (tree.canonicalize path) = some target ↔
      ∃ entry ∈ package.browser.fileEntries,
        entry.2 = target ∧ tree.key entry.1 = tree.key path := by
  obtain ⟨field, browser⟩ := exists_field_of_read? described
  rw [browser]
  exact file?_ofJson_eq_some_iff_mem keyed field

/-- An object in an ordered object is ordered. -/
theorem ascending_of_member?
    {manifest members : List (String × Json)}
    {key : String}
    (ordered : Json.Ordered (.object manifest))
    (field : Json.member? manifest key = some (.object members)) :
    Json.Ascending members := by
  obtain ⟨before, after, rfl, _⟩ := List.lookup_eq_some_iff.mp field
  cases ordered with
  | object _ values =>
      cases values (key, .object members) (by simp) with
      | object ascending _ => exact ascending

/-- The browser field of a manifest, whose objects are in the order of their
keys, replaces a file by the target of the last entry that has the key of the
file in the tree, be there such a file or not. The last entries are what is
listed, one for each file, and a module is replaced by its own entry. -/
theorem browser_entries_match_by_key
    {tree : FileTree}
    (built : tree.Built)
    (directory : Path)
    {manifest members : List (String × Json)}
    (ordered : Json.Ordered (.object manifest))
    (field : Json.member? manifest "browser" = some (.object members)) :
    ∃ descriptor,
      ofJson? tree.toFileSystem directory (.object manifest) = some descriptor ∧
        (∀ path target,
          descriptor.browser.file? (tree.canonicalize path) = some target ↔
            ∃ key, Governs tree directory members path key target) ∧
        (∀ path,
          descriptor.browser.file? (tree.canonicalize path) = none ↔
            ∀ key target, ¬ Replaces tree directory members path key target) ∧
        (∀ spelling target,
          (spelling, target) ∈ descriptor.browser.fileEntries ↔
            ∃ key, Governs tree directory members (directory.child key)
                key target ∧
              spelling = tree.canonicalize (directory.child key)) ∧
        (descriptor.browser.fileEntries.Pairwise fun entry other =>
          tree.key entry.1 ≠ tree.key other.1) ∧
        ∀ specifier target,
          descriptor.browser.module? specifier = some target ↔
            ReplacesModule members specifier target := by
  have ascending := ascending_of_member? ordered field
  refine ⟨_, rfl, ?_⟩
  rw [field]
  exact
    ⟨fun _ _ => file?_ofJson_eq_some_iff built.keyed ascending,
      fun _ => file?_ofJson_eq_none_iff built.keyed members,
      fun _ _ => mem_fileEntries_ofJson_iff built.keyed ascending,
      pairwise_fileEntries_ofJson built.keyed _,
      fun _ _ => module?_ofJson_eq_some_iff ascending⟩

/-- Two entries for one file in a tree that ignores the case of letters, and
an entry for a module. -/
def twiceReplaced : List (String × Json) :=
  [("./A.js", .string "./b.js"), ("./a.js", .bool false),
    ("left", .string "./b.js")]

/-- Of two entries for one file the one with the greater key counts. -/
theorem browser_entries_match_by_key_twiceReplaced :
    ∃ descriptor,
      ofJson? FileTree.empty.ignoringCase.toFileSystem (.ofString "/p")
          (.object [("browser", .object twiceReplaced)]) = some descriptor ∧
        descriptor.browser.file?
            (FileTree.empty.ignoringCase.canonicalize
              (.ofString "/P/x/../a.JS")) =
          some .stub ∧
        descriptor.browser.module? "left" = some (.path "./b.js") := by
  have reads : Json.ofText? ("\x7b\"browser\": \x7b\"left\": \"./b.js\", " ++
      "\"./a.js\": false, \"./A.js\": \"./b.js\"\x7d\x7d") =
        some (.object [("browser", .object twiceReplaced)]) := by
    rw [Json.ofText?]
    conv =>
      enter [1, 1, 1]
      simp only [String.reduceAppend, String.reduceToList]
    rfl
  have ordered := Json.ordered_ofText? reads
  obtain ⟨descriptor, made, files, _, _, _, modules⟩ :=
    browser_entries_match_by_key (.ignoringCase .empty) (.ofString "/p")
      ordered rfl
  refine ⟨descriptor, made, (files _ _).mpr ⟨"./a.js", ⟨?_, ?_, ?_⟩, ?_⟩,
    (modules _ _).mpr ⟨?_, ?_⟩⟩
  · decide +kernel
  · decide +kernel
  · exact ⟨.bool false, by simp [twiceReplaced], .stub⟩
  · have last : ∀ member ∈ twiceReplaced, isFileKey member.1 = true →
        member.1 ≤ "./a.js" := by
      decide +kernel
    rintro other _ ⟨isFile, _, _, present, _⟩
    exact last _ present isFile
  · decide +kernel
  · exact ⟨.string "./b.js", by simp [twiceReplaced], .path (by decide)⟩

end PackageDescriptor
end CommonJs
