import Std.Data.TreeMap
import CommonJs.FileSystem.Basic
import CommonJs.Json.Basic
import CommonJs.Path.Order

/-!
# Browser fields

The `browser` field of a manifest replaces parts of a package where it runs
in a browser. A text replaces the main file. An object has entries whose keys
name files of the package or modules, and whose values name the replacement,
or are `false` where nothing is to be loaded at all.
-/

namespace CommonJs

/-- What an entry puts in the place of a request. -/
inductive BrowserTarget
  | path (specifier : String)
  | stub
  deriving DecidableEq

namespace BrowserTarget

/-- The target that a value of a manifest names. -/
def ofJson? : Json → Option BrowserTarget
  | .string text => if text = "" then none else some (.path text)
  | .bool false => some .stub
  | _ => none

end BrowserTarget

/-- The entries of a browser field. File entries are kept under the compared
form of their paths, together with the canonical path. -/
structure BrowserMap where
  /-- What stands for the main file. -/
  main : Option BrowserTarget
  /-- The canonical path of each file and what stands for it. -/
  files : PathMap (Path × BrowserTarget)
  /-- What stands for each bare specifier. -/
  modules : Std.TreeMap String BrowserTarget
  /-- Whether paths are compared by the case of their letters. -/
  caseSensitive : Bool

namespace BrowserMap

/-- The field without entries. -/
def empty (caseSensitive : Bool) : BrowserMap := ⟨none, ∅, ∅, caseSensitive⟩

/-- The key of a file entry: its canonical path, in lower case if the file
system ignores case. -/
def fileKey (map : BrowserMap) (path : Path) : List Component :=
  (if map.caseSensitive then path else path.foldCase).components

/-- Whether the key of an entry names a file of the package. -/
def isFileKey (key : String) : Bool :=
  key.startsWith "./" || key.startsWith "../" || key.startsWith "/"

/-- The keys of the file entries of a browser field. -/
def fileKeys : Option Json → List String
  | some (.object members) => (members.map (·.1)).filter isFileKey
  | _ => []

/-- The map with one more entry of the manifest in a directory. An entry for
a file that already has one replaces it. -/
def addEntry
    (fileSystem : FileSystem)
    (directory : Path)
    (map : BrowserMap)
    (key : String)
    (value : Json) : BrowserMap :=
  match BrowserTarget.ofJson? value with
  | none => map
  | some target =>
      if isFileKey key then
        let path := fileSystem.canonicalize (directory.child key)
        { map with files := map.files.insert (map.fileKey path) (path, target) }
      else { map with modules := map.modules.insert key target }

/-- The browser field of the manifest in a directory. -/
def ofJson
    (fileSystem : FileSystem)
    (directory : Path) :
    Option Json → BrowserMap
  | some (.string text) =>
      { empty fileSystem.caseSensitive with
        main := BrowserTarget.ofJson? (.string text) }
  | some (.object members) =>
      members.foldl
        (fun map entry => addEntry fileSystem directory map entry.1 entry.2)
        (empty fileSystem.caseSensitive)
  | _ => empty fileSystem.caseSensitive

/-- The entry for a canonical path. -/
def file? (map : BrowserMap) (path : Path) : Option BrowserTarget :=
  map.files[map.fileKey path]?.map (·.2)

/-- The entry for a module. -/
def module? (map : BrowserMap) (specifier : String) : Option BrowserTarget :=
  map.modules[specifier]?

/-- The file entries with the canonical paths they are listed under. -/
def fileEntries (map : BrowserMap) : List (Path × BrowserTarget) :=
  map.files.toList.map (·.2)

/-- The module entries in ascending order of specifiers. -/
def moduleEntries (map : BrowserMap) : List (String × BrowserTarget) :=
  map.modules.toList

def hasFiles (map : BrowserMap) : Bool :=
  !map.files.isEmpty

/-- Whether there are no entries at all. -/
def isEmpty (map : BrowserMap) : Bool :=
  map.main.isNone && map.files.isEmpty && map.modules.isEmpty

end BrowserMap
end CommonJs
