import CommonJs.Path.Basic

/-!
# File systems

What resolution and loading ask of a file system: what stands at a path, the
text of a file, and one spelling for all the paths that lead to one place.
A file system does not change while it is looked at.
-/

namespace CommonJs

/-- What stands at a path. -/
inductive FileKind
  | file
  | directory
  deriving DecidableEq

/-- Why a file could not be read. -/
inductive ReadError
  | missing
  | isDirectory
  | throughFile
  | linkLoop
  | badName
  deriving DecidableEq

/-- A failed attempt to read a file. -/
structure ReadFailure where
  /-- Why the file could not be read. -/
  cause : ReadError
  /-- The words of the file system, if it has any. -/
  detail : Option String
  deriving DecidableEq

/-- A read-only view of files and directories. -/
structure FileSystem where
  /-- What stands at a path, if anything does. -/
  stat : Path → Option FileKind
  /-- The text of the file at a path. -/
  read : Path → Except ReadFailure String
  /-- Whether spellings that differ in the case of letters are different. -/
  caseSensitive : Bool
  /-- One spelling for all the paths that lead to one place. -/
  canonicalize : Path → Path
  /-- There are at most so many canonical paths of files. -/
  fileBound : Nat
  /-- There are at most so many canonical paths of files and directories. -/
  placeBound : Nat
  /-- The texts of all files together have at most so many characters. -/
  textBound : Nat

namespace FileSystem

/-- Whether a file stands at a path. -/
def isFile (fileSystem : FileSystem) (path : Path) : Bool :=
  fileSystem.stat path = some .file

/-- Whether a directory stands at a path. -/
def isDirectory (fileSystem : FileSystem) (path : Path) : Bool :=
  fileSystem.stat path = some .directory

end FileSystem
end CommonJs
