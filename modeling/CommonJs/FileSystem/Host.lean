import CommonJs.FileSystem.Basic
import CommonJs.Path.Normal
import CommonJs.Path.Order
import CommonJs.Text.Utf8

/-!
# Host file systems

A recorded part of a host's file system: files hold bytes, and symbolic links
lead elsewhere. A path is walked segment by segment from the root or from the
working directory. Every segment, be it empty, needs a directory to stand in;
`..` leads to the directory that really is above; a link is replaced by its
target, at most forty times in one walk.
-/

namespace CommonJs
namespace HostTree

/-- What stands at a place. -/
inductive Entry
  | file (bytes : List UInt8)
  | directory
  | link (target : Path)

/-- A place is the names that lead to it from the root, last name first. -/
abbrev Place := List (List Char)

/-- The steps that lead to a place from the root. -/
def Place.components (place : Place) : List Component :=
  .root :: (place.reverse.map Component.name)

def Place.toPath (place : Place) : Path :=
  Path.ofSegments (some .root) place.reverse

end HostTree

/-- A recorded tree with the directory in which relative paths start. -/
structure HostTree where
  /-- What lies at each absolute path. -/
  entries : PathMap HostTree.Entry
  /-- Where relative paths start. -/
  workingDirectory : Path

namespace HostTree

/-- What stands at a place. The root is a directory without being recorded. -/
def entry? (tree : HostTree) (place : Place) : Option Entry :=
  if place = [] then some .directory else tree.entries[place.components]?

/-- A host refuses names of more than 255 bytes. -/
def isBadName (name : List Char) : Bool :=
  255 < (String.ofList name).utf8ByteSize

/-- The place that segments lead to from a place, following at most `links`
links. Nothing need stand at the last name of all. -/
def walk
    (tree : HostTree)
    (links : Nat)
    (place : Place) :
    List (List Char) → Except ReadError Place
  | [] => .ok place
  | segment :: rest =>
      match tree.entry? place with
      | some .directory =>
          match Path.stepOf segment with
          | some (.name name) =>
              if isBadName name then .error .badName
              else
                match tree.entry? (name :: place) with
                | none =>
                    if rest = [] then .ok (name :: place) else .error .missing
                | some (.link target) =>
                    match links with
                    | 0 => .error .linkLoop
                    | links + 1 =>
                        let start := if target.isAbsolute then [] else place
                        walk tree links start
                          (Path.segments target.chars ++ rest)
                | some _ => walk tree links (name :: place) rest
          | some .up => walk tree links place.tail rest
          | _ => walk tree links place rest
      | _ => .error .throughFile
  termination_by segments => (links, segments.length)

/-- The most links that one walk follows. -/
def linkLimit : Nat := 40

/-- The place that a path leads to. The empty path leads nowhere, and no path
has a null character. -/
def follow (tree : HostTree) (path : Path) : Except ReadError Place :=
  if path.chars = [] then .error .missing
  else if path.chars.contains '\x00' then .error .badName
  else tree.walk linkLimit []
    (Path.segments (tree.workingDirectory.join path).chars)

/-- A host takes paths of at most this many bytes. -/
def pathLimit : Nat := 4095

/-- The place that a host leads to when it is handed a path whole. -/
def locate (tree : HostTree) (path : Path) : Except ReadError Place :=
  if pathLimit < path.toString.utf8ByteSize then .error .badName
  else tree.follow path

/-- The place of a path and what stands there. -/
def find?
    (tree : HostTree)
    (path : Path) : Except ReadError (Place × Entry) := do
  let place ← tree.locate path
  match tree.entry? place with
  | some entry => .ok (place, entry)
  | none => .error .missing

/-- What stands where a path leads. -/
def stat (tree : HostTree) (path : Path) : Option FileKind :=
  match tree.find? path with
  | .ok (_, .file _) => some .file
  | .ok (_, .directory) => some .directory
  | _ => none

/-- The bytes of a file. -/
def readBytes
    (tree : HostTree)
    (path : Path) : Except ReadError (List UInt8) := do
  match ← tree.find? path with
  | (_, .file bytes) => .ok bytes
  | (_, .directory) => .error .isDirectory
  | (_, .link _) => .error .linkLoop

/-- The text of a file, with replacement characters for what is no UTF-8. The
words that a host has for a failure differ from host to host and are left
out. -/
def read (tree : HostTree) (path : Path) : Except ReadFailure String :=
  match tree.readBytes path with
  | .ok bytes => .ok (Text.ofUtf8Lossy bytes)
  | .error cause => .error ⟨cause, none⟩

/-- The path of the place that a path leads to. It is found name by name, so
that only this path, and not the one it is found from, has to keep the limit.
A path that leads nowhere is normalized. -/
def canonicalize (tree : HostTree) (path : Path) : Path :=
  match tree.follow path with
  | .error _ => path.normalize
  | .ok place =>
      let real := place.toPath
      if (tree.entry? place).isSome && real.toString.utf8ByteSize ≤ pathLimit
        then real
      else path.normalize

/-- The number of files. -/
def fileCount (tree : HostTree) : Nat :=
  tree.entries.toList.countP fun entry =>
    match entry.2 with
    | .file _ => true
    | _ => false

/-- The number of bytes of an entry. -/
def Entry.byteSize : Entry → Nat
  | .file bytes => bytes.length
  | _ => 0

/-- The number of bytes in all files. A text has no more characters than its
file has bytes. -/
def byteSize (tree : HostTree) : Nat :=
  tree.entries.toList.foldr (fun entry size => entry.2.byteSize + size) 0

/-- A recorded tree as a file system. The root is a place that is not
recorded. -/
def toFileSystem (tree : HostTree) : FileSystem where
  stat := tree.stat
  read := tree.read
  caseSensitive := true
  canonicalize := tree.canonicalize
  fileBound := tree.fileCount
  placeBound := tree.entries.size + 1
  textBound := tree.byteSize

/-- The tree without entries. -/
def empty (workingDirectory : Path) : HostTree := ⟨∅, workingDirectory⟩

/-- The tree with an entry at a place. -/
def put (tree : HostTree) (place : Place) (entry : Entry) : HostTree :=
  { tree with entries := tree.entries.insert place.components entry }

/-- Where a name in the directory at a place leads to. A link that leads
nowhere counts as a name like any other. -/
def placeOf (tree : HostTree) (place : Place) (name : List Char) : Place :=
  match tree.walk linkLimit place [name] with
  | .ok found => found
  | .error _ => name :: place

/-- The tree and the place that a step leads to, with a directory made there
if nothing is. -/
def enter (tree : HostTree) (place : Place) : Component → HostTree × Place
  | .root => (tree, [])
  | .here => (tree, place)
  | .up => (tree, place.tail)
  | .name name =>
      let next := tree.placeOf place name
      if (tree.entry? next).isSome then (tree, next)
      else (tree.put next .directory, next)

/-- The tree and the place that some steps lead to, with a directory made at
each step where nothing is. -/
def enterAll (tree : HostTree) (steps : List Component) : HostTree × Place :=
  steps.foldl
    (fun (reached : HostTree × Place) step => reached.1.enter reached.2 step)
    (tree, [])

/-- The tree with an entry under a path from the root and directories above
it. A file is written to where its name leads, a link stands at the name
itself, and a directory is made only where nothing is. -/
def insert (tree : HostTree) (path : Path) (entry : Entry) : HostTree :=
  let steps := path.components
  match entry, steps.getLast? with
  | .directory, _ => (tree.enterAll steps).1
  | .file _, some (.name name) =>
      let (tree, place) := tree.enterAll steps.dropLast
      tree.put (tree.placeOf place name) entry
  | .link _, some (.name name) =>
      let (tree, place) := tree.enterAll steps.dropLast
      tree.put (name :: place) entry
  | _, _ => tree

end HostTree
end CommonJs
