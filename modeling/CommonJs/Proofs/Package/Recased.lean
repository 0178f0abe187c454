import CommonJs.Proofs.FileSystem.Shape

/-!
# Descriptors of one directory under several keys

In a tree, whatever a manifest says is looked up under keys: the manifest
itself, and each file that its browser field names. So two directories with
one key have the same manifest, and their descriptors put the same targets in
the place of the same requests. They may differ in the spelling of the
directory and of the files that they list.
-/

namespace CommonJs

/-! ## Browser fields -/

namespace BrowserMap

/-- Browser fields of a tree that have the same targets under the same keys. -/
structure SameTargets (tree : FileTree) (map other : BrowserMap) : Prop where
  /-- One target stands for the main file. -/
  main : map.main = other.main
  /-- Each key has one target in both. -/
  files (key : List Component) :
    map.files[key]?.map (·.2) = other.files[key]?.map (·.2)
  /-- The module entries are the same. -/
  modules : map.modules = other.modules
  /-- The first compares paths as the tree does. -/
  caseSensitive : map.caseSensitive = tree.caseSensitive
  /-- So does the second. -/
  otherCaseSensitive : other.caseSensitive = tree.caseSensitive

variable {tree : FileTree} {map other : BrowserMap}

theorem SameTargets.refl (same : map.caseSensitive = tree.caseSensitive) :
    SameTargets tree map map :=
  ⟨rfl, fun _ => rfl, rfl, same, same⟩

/-- The entry for a path is kept under the key of the path. -/
theorem fileKey_canonicalize
    (keyed : tree.Keyed)
    (sameCase : map.caseSensitive = tree.caseSensitive)
    (path : Path) : map.fileKey (tree.canonicalize path) = tree.key path := by
  have normal := FileTree.isNormal_canonicalize keyed path
  rw [← FileTree.key_canonicalize keyed path, fileKey, FileTree.key,
    FileTree.comparable, sameCase, normal]

/-- The same files are replaced by the same targets. -/
theorem SameTargets.file?
    (keyed : tree.Keyed)
    (targets : SameTargets tree map other)
    {path otherPath : Path}
    (same : tree.key path = tree.key otherPath) :
    map.file? (tree.canonicalize path) =
      other.file? (tree.canonicalize otherPath) := by
  unfold BrowserMap.file?
  rw [fileKey_canonicalize keyed targets.caseSensitive,
    fileKey_canonicalize keyed targets.otherCaseSensitive, same, targets.files]

/-- An entry comes in with the same target from directories with one key. -/
theorem SameTargets.addEntry
    {directory otherDirectory : Path}
    (keyed : tree.Keyed)
    (targets : SameTargets tree map other)
    (same : tree.key directory = tree.key otherDirectory)
    (key : String)
    (value : Json) :
    SameTargets tree
      (BrowserMap.addEntry tree.toFileSystem directory map key value)
      (BrowserMap.addEntry tree.toFileSystem otherDirectory other key
        value) := by
  unfold BrowserMap.addEntry
  cases BrowserTarget.ofJson? value with
  | none => exact targets
  | some target =>
      dsimp only
      split
      · have sameKey :
            map.fileKey (tree.toFileSystem.canonicalize (directory.child key)) =
              other.fileKey
                (tree.toFileSystem.canonicalize (otherDirectory.child key)) :=
          (fileKey_canonicalize keyed targets.caseSensitive _).trans
            ((FileTree.key_join_eq_of_key_eq same _).trans
              (fileKey_canonicalize keyed targets.otherCaseSensitive _).symm)
        refine { targets with files := fun asked => ?_ }
        rw [sameKey, Std.TreeMap.getElem?_insert, Std.TreeMap.getElem?_insert]
        split
        · rfl
        · exact targets.files asked
      · exact { targets with
          modules := congrArg (·.insert key target) targets.modules }

/-- By induction on the members, all targets are the same. -/
theorem sameTargets_ofJson
    {directory otherDirectory : Path}
    (keyed : tree.Keyed)
    (same : tree.key directory = tree.key otherDirectory)
    (field : Option Json) :
    SameTargets tree (ofJson tree.toFileSystem directory field)
      (ofJson tree.toFileSystem otherDirectory field) := by
  unfold ofJson
  split
  · exact .refl rfl
  next members =>
    have start : SameTargets tree (empty tree.toFileSystem.caseSensitive)
        (empty tree.toFileSystem.caseSensitive) := .refl rfl
    generalize empty tree.toFileSystem.caseSensitive = map at start
    suffices added : ∀ map other, SameTargets tree map other →
        SameTargets tree
          (members.foldl (fun map entry =>
            BrowserMap.addEntry tree.toFileSystem directory map entry.1 entry.2)
              map)
          (members.foldl (fun map entry =>
            BrowserMap.addEntry tree.toFileSystem otherDirectory map entry.1
              entry.2) other) from
      added map map start
    intro map other targets
    induction members generalizing map other with
    | nil => exact targets
    | cons entry others inductionHypothesis =>
        exact inductionHypothesis _ _
          (targets.addEntry keyed same entry.1 entry.2)
  · exact .refl rfl

end BrowserMap

/-! ## Descriptors -/

/-- Descriptors in a tree that say the same of directories that correspond. -/
structure PackageDescriptor.Counterpart
    (tree : FileTree)
    (same : Path → Path → Prop)
    (descriptor other : PackageDescriptor) : Prop where
  /-- The directories correspond. -/
  directory : same descriptor.directory other.directory
  /-- The main files are spelled the same. -/
  main : descriptor.main = other.main
  /-- The browser fields have the same targets. -/
  browser : BrowserMap.SameTargets tree descriptor.browser other.browser

/-- Directories with one key have descriptors that say the same, or none. -/
theorem PackageDescriptor.counterpart_read?
    {tree : FileTree}
    (keyed : tree.Keyed)
    {same : Path → Path → Prop}
    {directory other : Path}
    (correspond : same directory other)
    (sameKey : tree.key directory = tree.key other)
    (manifest : String) :
    Option.Rel (Counterpart tree same)
      (read? tree.toFileSystem manifest directory)
      (read? tree.toFileSystem manifest other) := by
  rw [read?_toFileSystem, read?_toFileSystem,
    FileTree.toOption_read_child sameKey]
  cases (tree.read (other.child manifest)).toOption with
  | none => exact .none
  | some text =>
      rw [Option.bind_some, Option.bind_some]
      cases Json.ofText? text with
      | none => exact .none
      | some json =>
          cases json with
          | object members =>
              exact .some
                { directory := correspond
                  main := rfl
                  browser := BrowserMap.sameTargets_ofJson keyed sameKey _ }
          | _ => exact .none

end CommonJs
