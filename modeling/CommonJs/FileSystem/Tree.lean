import CommonJs.FileSystem.Basic
import CommonJs.Path.Normal
import CommonJs.Path.Order

/-!
# File trees in memory

A tree of files and directories, built by insertion. A node is kept under the
normalized form of its path, with ASCII letters in lower case if the tree
ignores case, and remembers the spelling it was made with. Every directory
above a node is in the tree.
-/

namespace CommonJs
namespace FileTree

/-- What a node holds. -/
inductive Entry
  | file (text : String)
  | directory
  deriving DecidableEq

/-- A node and the path it was made with. -/
structure Node where
  /-- The normalized path with the spelling that is shown. -/
  path : Path
  /-- What lies there. -/
  entry : Entry
  deriving DecidableEq

end FileTree

/-- A tree of files and directories. -/
structure FileTree where
  /-- What lies at each compared form of a path. -/
  nodes : PathMap FileTree.Node
  /-- Whether paths that differ in the case of letters are different. -/
  caseSensitive : Bool

namespace FileTree

/-- The tree without nodes, which tells letters of different case apart. -/
def empty : FileTree := ⟨∅, true⟩

/-- The spelling under which a path is compared. -/
def comparable (caseSensitive : Bool) (path : Path) : Path :=
  if caseSensitive then path.normalize else path.normalize.foldCase

/-- The key of a path. -/
def key (tree : FileTree) (path : Path) : List Component :=
  (comparable tree.caseSensitive path).components

/-- The node at a path. -/
def node? (tree : FileTree) (path : Path) : Option Node :=
  tree.nodes[tree.key path]?

/-- The tree with a node in the place of what was at its path. -/
def putNode (tree : FileTree) (node : Node) : FileTree :=
  { tree with nodes := tree.nodes.insert (tree.key node.path) node }

/-- The tree with a directory at a path, unless something is there. -/
def fillDirectory (tree : FileTree) (path : Path) : FileTree :=
  { tree with
    nodes := tree.nodes.insertIfNew (tree.key path) ⟨path, .directory⟩ }

/-- The tree with a directory and all directories above it. The empty path
that ends the parents of a relative path is no place in the tree. -/
def insertDirectory (tree : FileTree) (path : Path) : FileTree :=
  (path.normalize.ancestors.filter (·.chars ≠ [])).foldl fillDirectory tree

/-- The tree with a file and all directories above it. What was at the path
of the file is replaced. -/
def insertFile (tree : FileTree) (path : Path) (text : String) : FileTree :=
  let path := path.normalize
  let tree :=
    match path.parent with
    | some parent => tree.insertDirectory parent
    | none => tree
  tree.putNode ⟨path, .file text⟩

/-- The tree that ignores the case of ASCII letters. Where several nodes fall
together, the last one in the order of paths remains. -/
def ignoringCase (tree : FileTree) : FileTree :=
  tree.nodes.toList.foldl (fun folded entry => folded.putNode entry.2)
    ⟨∅, false⟩

/-- The number of files. -/
def fileCount (tree : FileTree) : Nat :=
  tree.nodes.toList.countP fun entry => entry.2.entry ≠ .directory

/-- The number of characters of an entry. -/
def Entry.textSize : Entry → Nat
  | .file text => text.length
  | .directory => 0

/-- The number of characters in all files. -/
def textSize (tree : FileTree) : Nat :=
  tree.nodes.toList.foldr (fun entry size => entry.2.entry.textSize + size) 0

/-- What stands at a path. -/
def stat (tree : FileTree) (path : Path) : Option FileKind :=
  (tree.node? path).map fun node =>
    match node.entry with
    | .file _ => .file
    | .directory => .directory

/-- A failure to read names its cause and the path as it was given. -/
def read (tree : FileTree) (path : Path) : Except ReadFailure String :=
  match tree.node? path with
  | some ⟨_, .file text⟩ => .ok text
  | some ⟨_, .directory⟩ =>
      .error ⟨.isDirectory, some ("EISDIR: " ++ path.toString)⟩
  | none => .error ⟨.missing, some ("ENOENT: " ++ path.toString)⟩

/-- The spelling that the node at a path was made with; a path that leads
nowhere is normalized. -/
def canonicalize (tree : FileTree) (path : Path) : Path :=
  match tree.node? path with
  | some node => node.path
  | none => path.normalize

/-- A tree as a file system. -/
def toFileSystem (tree : FileTree) : FileSystem where
  stat := tree.stat
  read := tree.read
  caseSensitive := tree.caseSensitive
  canonicalize := tree.canonicalize
  fileBound := tree.fileCount
  placeBound := tree.nodes.size
  textBound := tree.textSize

end FileTree
end CommonJs
