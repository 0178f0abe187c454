import CommonJs.Package.Descriptor
import CommonJs.Proofs.FileSystem.Canonical

/-!
# Descriptors of one directory in several spellings

A directory can be spelled in many ways that lead to it. Where the file
system does not tell them apart, a descriptor shows the spelling it was made
for and the canonical paths that were given for it, and apart from that all
spellings have one descriptor.
-/

namespace CommonJs

/-- A file system that does not tell paths apart that lead the same way. The
failure to read a file may still show the path as it was given. -/
structure FileSystem.Uniform (fileSystem : FileSystem) : Prop where
  /-- The same stands where paths lead the same way. -/
  stat {path other : Path} :
    path.SameWay other → fileSystem.stat path = fileSystem.stat other
  /-- The same text is read there. -/
  read {path other : Path} :
    path.SameWay other →
      (fileSystem.read path).toOption = (fileSystem.read other).toOption
  /-- Their canonical paths lead the same way as well. -/
  canonicalize {path other : Path} :
    path.SameWay other →
      (fileSystem.canonicalize path).SameWay (fileSystem.canonicalize other)

/-- A tree looks at the keys of paths only. -/
theorem FileTree.uniform (tree : FileTree) : tree.toFileSystem.Uniform where
  stat same := FileTree.stat_eq_of_sameWay same tree
  read {path other} same := by
    have sameRead : (tree.read path).toOption = (tree.read other).toOption := by
      unfold FileTree.read
      rw [FileTree.node?_eq_of_sameWay same]
      split
      all_goals rfl
    exact sameRead
  canonicalize same :=
    congrArg Path.components (FileTree.canonicalize_eq_of_sameWay same tree)

namespace FileSystem.Uniform

variable {fileSystem : FileSystem} {path other : Path}

/-- A path and its other spellings are files together. -/
theorem isFile
    (uniform : fileSystem.Uniform)
    (same : path.SameWay other) :
    fileSystem.isFile path = fileSystem.isFile other := by
  rw [FileSystem.isFile, FileSystem.isFile, uniform.stat same]

theorem isDirectory
    (uniform : fileSystem.Uniform)
    (same : path.SameWay other) :
    fileSystem.isDirectory path = fileSystem.isDirectory other := by
  rw [FileSystem.isDirectory, FileSystem.isDirectory, uniform.stat same]

end FileSystem.Uniform

/-! ## Browser fields -/

/-- Browser fields with the same entries, whose files are listed under paths
that lead the same way. -/
structure BrowserMap.Alike (map other : BrowserMap) : Prop where
  /-- One target stands for the main file. -/
  main : map.main = other.main
  /-- Under each key the same target stands for one file. -/
  files (key : List Component) :
    Option.Rel (fun entry otherEntry => entry.1.SameWay otherEntry.1 ∧
        entry.2 = otherEntry.2)
      map.files[key]? other.files[key]?
  /-- The module entries are the same. -/
  modules : map.modules = other.modules
  /-- Both compare paths in the same way. -/
  caseSensitive : map.caseSensitive = other.caseSensitive

namespace BrowserMap

theorem Alike.refl (map : BrowserMap) : map.Alike map where
  main := rfl
  files key := by
    cases map.files[key]? with
    | none => exact .none
    | some entry => exact .some ⟨rfl, rfl⟩
  modules := rfl
  caseSensitive := rfl

variable {map other : BrowserMap} {path otherPath : Path}

/-- A file has one key in both fields. -/
theorem Alike.fileKey
    (alike : map.Alike other)
    (same : path.SameWay otherPath) :
    map.fileKey path = other.fileKey otherPath := by
  unfold BrowserMap.fileKey
  rw [alike.caseSensitive]
  split
  · exact same
  · exact same.foldCase

/-- Fields that are alike replace the same files by the same targets. -/
theorem Alike.file?
    (alike : map.Alike other)
    (same : path.SameWay otherPath) :
    map.file? path = other.file? otherPath := by
  have entries := alike.files (map.fileKey path)
  unfold BrowserMap.file?
  rw [← alike.fileKey same]
  generalize map.files[map.fileKey path]? = entry at entries
  generalize other.files[map.fileKey path]? = otherEntry at entries
  cases entries with
  | none => rfl
  | some both => exact congrArg some both.2

/-- An entry for a file is kept under one key from either directory. -/
theorem Alike.addEntry
    {fileSystem : FileSystem}
    {directory otherDirectory : Path}
    (alike : map.Alike other)
    (uniform : fileSystem.Uniform)
    (same : directory.SameWay otherDirectory)
    (key : String)
    (value : Json) :
    (BrowserMap.addEntry fileSystem directory map key value).Alike
      (BrowserMap.addEntry fileSystem otherDirectory other key value) := by
  unfold BrowserMap.addEntry
  cases BrowserTarget.ofJson? value with
  | none => exact alike
  | some target =>
      dsimp only
      split
      · have paths :
            (fileSystem.canonicalize (directory.child key)).SameWay
              (fileSystem.canonicalize (otherDirectory.child key)) :=
          uniform.canonicalize (same.join _)
        refine { alike with files := fun asked => ?_ }
        rw [Std.TreeMap.getElem?_insert, Std.TreeMap.getElem?_insert,
          alike.fileKey paths]
        split
        · exact .some ⟨paths, rfl⟩
        · exact alike.files asked
      · exact { alike with
          modules := congrArg (·.insert key target) alike.modules }

theorem Alike.foldl_addEntry
    {fileSystem : FileSystem}
    {directory otherDirectory : Path}
    (alike : map.Alike other)
    (uniform : fileSystem.Uniform)
    (same : directory.SameWay otherDirectory)
    (members : List (String × Json)) :
    (members.foldl
        (fun map entry =>
          BrowserMap.addEntry fileSystem directory map entry.1 entry.2)
        map).Alike
      (members.foldl
        (fun map entry =>
          BrowserMap.addEntry fileSystem otherDirectory map entry.1 entry.2)
        other) := by
  induction members generalizing map other with
  | nil => exact alike
  | cons entry others inductionHypothesis =>
      exact inductionHypothesis (alike.addEntry uniform same entry.1 entry.2)

/-- By induction on the members, the fields are alike. -/
theorem alike_ofJson
    {fileSystem : FileSystem}
    {directory otherDirectory : Path}
    (uniform : fileSystem.Uniform)
    (same : directory.SameWay otherDirectory)
    (field : Option Json) :
    (ofJson fileSystem directory field).Alike
      (ofJson fileSystem otherDirectory field) := by
  unfold ofJson
  split
  · exact .refl _
  · exact (Alike.refl _).foldl_addEntry uniform same _
  · exact .refl _

end BrowserMap

/-! ## Descriptors -/

/-- Descriptors of one package, under paths that lead the same way. -/
structure PackageDescriptor.Alike
    (descriptor other : PackageDescriptor) : Prop where
  /-- The directories are one. -/
  directory : descriptor.directory.SameWay other.directory
  /-- The packages have one name. -/
  name : descriptor.name = other.name
  /-- The main files are spelled the same. -/
  main : descriptor.main = other.main
  /-- The browser fields have the same entries. -/
  browser : descriptor.browser.Alike other.browser

namespace PackageDescriptor

variable {fileSystem : FileSystem} {directory other : Path}

/-- So are the descriptors that the same JSON gives. -/
theorem alike_ofJson?
    (uniform : fileSystem.Uniform)
    (same : directory.SameWay other)
    (json : Json) :
    Option.Rel Alike (ofJson? fileSystem directory json)
      (ofJson? fileSystem other json) := by
  cases json with
  | object members =>
      exact .some
        { directory := same
          name := rfl
          main := rfl
          browser := BrowserMap.alike_ofJson uniform same _ }
  | _ => exact .none

/-- All spellings of a directory have one descriptor, or none. -/
theorem alike_read?
    (uniform : fileSystem.Uniform)
    (same : directory.SameWay other)
    (manifest : String) :
    Option.Rel Alike (read? fileSystem manifest directory)
      (read? fileSystem manifest other) := by
  have manifests : (directory.child manifest).SameWay (other.child manifest) :=
    same.join _
  have texts := uniform.read manifests
  unfold read?
  dsimp only
  rw [uniform.isFile manifests]
  split
  · generalize fileSystem.read (directory.child manifest) = text at texts ⊢
    generalize fileSystem.read (other.child manifest) = otherText at texts ⊢
    cases text with
    | error failure =>
        cases otherText with
        | error _ => exact .none
        | ok text => cases texts
    | ok text =>
        cases otherText with
        | error _ => cases texts
        | ok otherText =>
            obtain rfl : text = otherText := Option.some.inj texts
            dsimp only
            cases Json.ofText? text with
            | none => exact .none
            | some json => exact alike_ofJson? uniform same json
  · exact .none

end PackageDescriptor
end CommonJs
