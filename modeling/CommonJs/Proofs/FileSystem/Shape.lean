import CommonJs.Package.Descriptor
import CommonJs.Proofs.FileSystem.Canonical

/-!
# Trees of one shape

Two trees have one shape when the same files and directories stand in them,
spelled the same way, whatever the texts of the files are. Then they answer
every question alike but the one for a text.
-/

namespace CommonJs
namespace FileTree

/-- What kind of node it is. -/
def Entry.kind : Entry → FileKind
  | .file _ => .file
  | .directory => .directory

/-- What is known of a node without looking into it. -/
def Node.outline (node : Node) : Path × FileKind :=
  (node.path, node.entry.kind)

/-- Trees with the same nodes but for the texts of files. -/
structure SameShape (tree other : FileTree) : Prop where
  /-- The trees compare paths in the same way. -/
  caseSensitive : tree.caseSensitive = other.caseSensitive
  /-- The same stands at each place, a file or a directory. -/
  outlines (key : List Component) :
    tree.nodes[key]?.map Node.outline = other.nodes[key]?.map Node.outline

namespace SameShape

variable {tree other : FileTree}

/-- Nodes of trees of one shape are alike but for their texts. -/
theorem node?
    (shape : tree.SameShape other)
    (path : Path) :
    (tree.node? path).map Node.outline =
      (other.node? path).map Node.outline := by
  unfold FileTree.node? FileTree.key
  rw [shape.caseSensitive]
  exact shape.outlines _

theorem stat_eq
    (shape : tree.SameShape other)
    (path : Path) : tree.stat path = other.stat path := by
  have kinds (tree : FileTree) :
      tree.stat path = ((tree.node? path).map Node.outline).map (·.2) := by
    rw [Option.map_map]
    rfl
  rw [kinds, kinds, shape.node?]

/-- The shape of a tree determines the spellings that it chooses. -/
theorem canonicalize_eq
    (shape : tree.SameShape other)
    (path : Path) : tree.canonicalize path = other.canonicalize path := by
  have paths (tree : FileTree) :
      tree.canonicalize path =
        (((tree.node? path).map Node.outline).map (·.1)).getD
          path.normalize := by
    unfold FileTree.canonicalize
    cases tree.node? path <;> rfl
  rw [paths, paths, shape.node?]

end SameShape

/-! ## The texts of files -/

/-- The text of a node that is a file. -/
def Node.text? (node : Node) : Option String :=
  match node.entry with
  | .file text => some text
  | .directory => none

/-- What can be read is the text of a node. -/
theorem toOption_read (tree : FileTree) (path : Path) :
    (tree.read path).toOption = (tree.node? path).bind Node.text? := by
  unfold read
  cases tree.node? path with
  | none => rfl
  | some node => rcases node with ⟨spelling, entry⟩; cases entry <;> rfl

/-- Directories with one key hold the same texts. -/
theorem toOption_read_child
    {tree : FileTree}
    {directory other : Path}
    (same : tree.key directory = tree.key other)
    (name : String) :
    (tree.read (directory.child name)).toOption =
      (tree.read (other.child name)).toOption := by
  have sameNode : tree.node? (directory.child name) =
      tree.node? (other.child name) :=
    node?_eq_of_key_eq (key_join_eq_of_key_eq same _)
  rw [toOption_read, toOption_read, sameNode]

/-- Files are what can be read. -/
theorem isFile_eq (tree : FileTree) (path : Path) :
    tree.toFileSystem.isFile path = (tree.read path).toOption.isSome := by
  have kind : tree.toFileSystem.isFile path =
      decide (tree.stat path = some .file) := rfl
  rw [kind, toOption_read, stat]
  cases tree.node? path with
  | none => rfl
  | some node => rcases node with ⟨spelling, entry⟩; cases entry <;> rfl

@[simp] theorem caseSensitive_foldl_fillDirectory
    (tree : FileTree)
    (paths : List Path) :
    (paths.foldl fillDirectory tree).caseSensitive = tree.caseSensitive := by
  induction paths generalizing tree with
  | nil => rfl
  | cons path others inductionHypothesis =>
      exact inductionHypothesis (tree.fillDirectory path)

@[simp] theorem caseSensitive_insertDirectory (tree : FileTree) (path : Path) :
    (tree.insertDirectory path).caseSensitive = tree.caseSensitive :=
  caseSensitive_foldl_fillDirectory tree _

/-- A new directory takes the place of no text. -/
theorem text_fillDirectory (tree : FileTree) (path place : Path) :
    ((tree.fillDirectory path).read place).toOption =
      (tree.read place).toOption := by
  have filled : (tree.fillDirectory path).node? place =
      if tree.key path = tree.key place ∧ tree.key path ∉ tree.nodes then
        some ⟨path, .directory⟩
      else tree.node? place := by
    have ownKey : (tree.fillDirectory path).key place = tree.key place := rfl
    rw [node?, ownKey, fillDirectory, Std.TreeMap.getElem?_insertIfNew]
    simp only [Std.compare_eq_iff_eq]
    rfl
  rw [toOption_read, toOption_read, filled]
  split
  next fresh =>
    have absent : tree.node? place = none := by
      rw [node?, ← fresh.1]
      exact Std.TreeMap.getElem?_eq_none fresh.2
    rw [absent]
    rfl
  next => rfl

/-- A directory that is put in takes no text away. -/
theorem text_insertDirectory (tree : FileTree) (path place : Path) :
    ((tree.insertDirectory path).read place).toOption =
      (tree.read place).toOption := by
  unfold insertDirectory
  induction path.normalize.ancestors.filter (·.chars ≠ [])
    generalizing tree with
  | nil => rfl
  | cons above others inductionHypothesis =>
      exact (inductionHypothesis (tree.fillDirectory above)).trans
        (text_fillDirectory tree above place)

/-- The directories above a file are made before the file is. -/
theorem insertFile_eq_putNode (tree : FileTree) (path : Path) :
    ∃ around : FileTree,
      around.caseSensitive = tree.caseSensitive ∧
        (∀ place, (around.read place).toOption = (tree.read place).toOption) ∧
          ∀ text, tree.insertFile path text =
            around.putNode ⟨path.normalize, .file text⟩ := by
  cases isParent : path.normalize.parent with
  | none =>
      exact ⟨tree, rfl, fun _ => rfl, fun _ => by rw [insertFile, isParent]⟩
  | some parent =>
      exact ⟨tree.insertDirectory parent,
        tree.caseSensitive_insertDirectory parent,
        tree.text_insertDirectory parent, fun _ => by rw [insertFile, isParent]⟩

/-- What is put into a tree does not change how it compares paths. -/
@[simp] theorem key_insertFile
    (tree : FileTree)
    (path : Path)
    (text : String)
    (place : Path) :
    (tree.insertFile path text).key place = tree.key place := by
  obtain ⟨around, sameCase, _, isPut⟩ := tree.insertFile_eq_putNode path
  rw [isPut, key, key, ← sameCase]
  rfl

/-- A file has the text that it was given, and the other files keep theirs. -/
theorem text_insertFile
    (tree : FileTree)
    (path : Path)
    (text : String)
    (place : Path) :
    ((tree.insertFile path text).read place).toOption =
      if tree.key path = tree.key place then some text
        else (tree.read place).toOption := by
  obtain ⟨around, sameCase, sameTexts, isPut⟩ := tree.insertFile_eq_putNode path
  have sameKey (place : Path) : around.key place = tree.key place := by
    rw [key, key, sameCase]
  have put : (around.putNode ⟨path.normalize, .file text⟩).node? place =
      if tree.key path = tree.key place then some ⟨path.normalize, .file text⟩
      else around.node? place := by
    have ownKey : (around.putNode ⟨path.normalize, .file text⟩).key place =
        around.key place := rfl
    rw [node?, ownKey, putNode, Std.TreeMap.getElem?_insert, key_normalize,
      sameKey, sameKey]
    simp only [Std.compare_eq_iff_eq]
    rw [node?, sameKey]
  rw [isPut, ← sameTexts, toOption_read, toOption_read, put]
  split
  · rfl
  · rfl

/-- Another text in a file does not change the shape of a tree. -/
theorem sameShape_insertFile
    (tree : FileTree)
    (path : Path)
    (text other : String) :
    (tree.insertFile path text).SameShape (tree.insertFile path other) := by
  obtain ⟨around, _, _, isPut⟩ := tree.insertFile_eq_putNode path
  rw [isPut, isPut]
  refine ⟨rfl, fun key => ?_⟩
  have ownKey : around.key path.normalize = around.key path :=
    key_normalize around path
  unfold putNode
  rw [Std.TreeMap.getElem?_insert, Std.TreeMap.getElem?_insert]
  split
  · rfl
  · rfl

end FileTree

/-! ## Manifests -/

namespace PackageDescriptor

/-- The descriptor of a directory in a tree depends on the text of its
manifest. -/
theorem read?_toFileSystem
    (tree : FileTree)
    (manifest : String)
    (directory : Path) :
    read? tree.toFileSystem manifest directory =
      (tree.read (directory.child manifest)).toOption.bind fun text =>
        (Json.ofText? text).bind (ofJson? tree.toFileSystem directory) := by
  unfold read?
  dsimp only
  have isRead :
      tree.toFileSystem.read (directory.child manifest) =
        tree.read (directory.child manifest) :=
    rfl
  rw [FileTree.isFile_eq, isRead]
  cases tree.read (directory.child manifest) with
  | ok text => rfl
  | error failure => rfl

/-- The main file that the text of a manifest names. -/
def mainOfText? (text : String) : Option (Option String) :=
  (Json.ofText? text).bind fun
    | .object members => some (textMember? members "main")
    | _ => none

/-- The main file does not depend on the rest of the tree. -/
theorem map_main_read?
    (tree : FileTree)
    (manifest : String)
    (directory : Path) :
    (read? tree.toFileSystem manifest directory).map (·.main) =
      (tree.read (directory.child manifest)).toOption.bind mainOfText? := by
  rw [read?_toFileSystem, Option.map_bind]
  refine congrArg _ (funext fun text => ?_)
  unfold mainOfText?
  rw [Function.comp_apply, Option.map_bind]
  refine congrArg _ (funext fun json => ?_)
  cases json <;> rfl

/-- A manifest without a browser field has no entries. -/
theorem isEmpty_browser_of_member?_eq_none
    {fileSystem : FileSystem}
    {directory : Path}
    {members : List (String × Json)}
    {descriptor : PackageDescriptor}
    (noField : Json.member? members "browser" = none)
    (described : ofJson? fileSystem directory (.object members) =
      some descriptor) :
    descriptor.browser.isEmpty = true := by
  rw [← Option.some.inj described]
  simp [noField, BrowserMap.ofJson, BrowserMap.isEmpty, BrowserMap.empty]

end PackageDescriptor
end CommonJs
