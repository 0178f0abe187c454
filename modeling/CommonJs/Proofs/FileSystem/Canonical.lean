import CommonJs.FileSystem.Tree
import CommonJs.Proofs.Path.Folding
import CommonJs.Proofs.Path.Normal
import Mathlib.Data.List.Perm.Subperm
import Std.Data.TreeMap.Lemmas

/-!
# Canonical paths of file trees

In a tree that is built by insertions, be the case of letters told apart or
folded on the way, each node is kept under the key of its own path, and that
path is normal. So the canonical spelling of a path has the key of the path:
it leads to the same node, and it is its own canonical spelling.
-/

namespace CommonJs
namespace FileTree

/-! ## Trees built by insertions -/

/-- The trees that insertions and the folding of case build from the empty
one. -/
inductive Built : FileTree → Prop
  | empty : Built .empty
  | insertFile {tree : FileTree} (path : Path) (text : String) :
      Built tree → Built (tree.insertFile path text)
  | insertDirectory {tree : FileTree} (path : Path) :
      Built tree → Built (tree.insertDirectory path)
  | ignoringCase {tree : FileTree} :
      Built tree → Built tree.ignoringCase

/-- Each node has a normal path and is kept under the key of it. -/
def Keyed (tree : FileTree) : Prop :=
  ∀ key node, tree.nodes[key]? = some node →
    node.path.IsNormal ∧ key = tree.key node.path

theorem Keyed.empty (caseSensitive : Bool) : Keyed ⟨∅, caseSensitive⟩ := by
  intro key node present
  simp at present

/-- A node with a normal path is put where its path leads. -/
theorem Keyed.putNode
    {tree : FileTree}
    {node : Node}
    (keyed : tree.Keyed)
    (normal : node.path.IsNormal) : (tree.putNode node).Keyed := by
  intro key other present
  simp only [FileTree.putNode, Std.TreeMap.getElem?_insert,
    Std.compare_eq_iff_eq] at present
  split_ifs at present with same
  · obtain rfl : node = other := Option.some.inj present
    exact ⟨normal, same.symm⟩
  · exact keyed key other present

/-- So is a directory that is filled in. -/
theorem Keyed.fillDirectory
    {tree : FileTree}
    {path : Path}
    (keyed : tree.Keyed)
    (normal : path.IsNormal) : (tree.fillDirectory path).Keyed := by
  intro key node present
  simp only [FileTree.fillDirectory, Std.TreeMap.getElem?_insertIfNew,
    Std.compare_eq_iff_eq] at present
  split_ifs at present with fresh
  · rw [← Option.some.inj present]
    exact ⟨normal, fresh.1.symm⟩
  · exact keyed key node present

/-- Filling in one directory after the other keeps nodes under their keys. -/
theorem Keyed.foldl_fillDirectory
    {tree : FileTree}
    {paths : List Path}
    (keyed : tree.Keyed)
    (normal : ∀ path ∈ paths, path.IsNormal) :
    (paths.foldl FileTree.fillDirectory tree).Keyed := by
  induction paths generalizing tree with
  | nil => exact keyed
  | cons path others inductionHypothesis =>
      exact inductionHypothesis
        (keyed.fillDirectory (normal path List.mem_cons_self))
        fun other present => normal other (List.mem_cons_of_mem _ present)

/-- The places above a path are normal when the empty path is left out. -/
theorem isNormal_of_mem_ancestors
    {path ancestor : Path}
    (present : ancestor ∈ path.normalize.ancestors)
    (nonempty : ancestor.chars ≠ []) : ancestor.IsNormal := by
  have emptyOrNormal : ∀ ancestor ∈ path.normalize.ancestors,
      ancestor.chars = [] ∨ ancestor.IsNormal := by
    refine Path.forall_ancestors _ ?_ (Or.inr (Path.isNormal_normalize path))
    intro below above emptyOrNormal isParent
    rcases emptyOrNormal with empty | normal
    · rw [(Path.parent_eq_none_iff below).mpr
        (Or.inl ((Path.components_eq_nil_iff below).mpr empty))] at isParent
      cases isParent
    · exact normal.of_parent isParent
  exact (emptyOrNormal ancestor present).resolve_left nonempty

theorem Keyed.insertDirectory
    {tree : FileTree}
    (keyed : tree.Keyed)
    (path : Path) : (tree.insertDirectory path).Keyed := by
  refine keyed.foldl_fillDirectory fun ancestor present => ?_
  obtain ⟨above, nonempty⟩ := List.mem_filter.mp present
  exact isNormal_of_mem_ancestors above (by simpa using nonempty)

/-- A file and the directories above it come to stand where their paths lead. -/
theorem Keyed.insertFile
    {tree : FileTree}
    (keyed : tree.Keyed)
    (path : Path)
    (text : String) : (tree.insertFile path text).Keyed := by
  unfold FileTree.insertFile
  refine Keyed.putNode ?_ (Path.isNormal_normalize path)
  cases path.normalize.parent with
  | none => exact keyed
  | some parent => exact keyed.insertDirectory parent

/-- Nodes are put anew under the keys of their folded paths. -/
theorem Keyed.ignoringCase
    {tree : FileTree}
    (keyed : tree.Keyed) : tree.ignoringCase.Keyed := by
  have normal : ∀ entry ∈ tree.nodes.toList, entry.2.path.IsNormal := by
    intro entry present
    exact (keyed entry.1 entry.2
      (Std.TreeMap.mem_toList_iff_getElem?_eq_some.mp present)).1
  unfold FileTree.ignoringCase
  generalize tree.nodes.toList = entries at normal
  have start : Keyed ⟨∅, false⟩ := Keyed.empty false
  generalize (⟨∅, false⟩ : FileTree) = folded at start
  induction entries generalizing folded with
  | nil => exact start
  | cons entry others inductionHypothesis =>
      exact inductionHypothesis
        (fun other present => normal other (List.mem_cons_of_mem _ present))
        _ (start.putNode (normal entry List.mem_cons_self))

/-- Trees are made by steps that keep the nodes under their keys. -/
theorem Built.keyed
    {tree : FileTree}
    (built : tree.Built) : tree.Keyed := by
  induction built with
  | empty => exact Keyed.empty true
  | insertFile path text _ keyed => exact keyed.insertFile path text
  | insertDirectory path _ keyed => exact keyed.insertDirectory path
  | ignoringCase _ keyed => exact keyed.ignoringCase

/-! ## Canonical paths -/

section Canonical

variable {tree : FileTree}

/-- Only what is left when a path is normalized counts for its key. -/
@[simp] theorem key_normalize (tree : FileTree) (path : Path) :
    tree.key path.normalize = tree.key path := by
  simp [key, comparable]

/-- What stands at a path depends on its key. -/
theorem node?_eq_of_key_eq
    {path other : Path}
    (same : tree.key path = tree.key other) :
    tree.node? path = tree.node? other :=
  congrArg (tree.nodes[·]?) same

theorem stat_eq_of_key_eq
    {path other : Path}
    (same : tree.key path = tree.key other) :
    tree.stat path = tree.stat other := by
  rw [stat, stat, node?_eq_of_key_eq same]

/-- Paths with one key are files together. -/
theorem isFile_eq_of_key_eq
    {path other : Path}
    (same : tree.key path = tree.key other) :
    tree.toFileSystem.isFile path = tree.toFileSystem.isFile other :=
  congrArg (fun kind => decide (kind = some FileKind.file))
    (stat_eq_of_key_eq same)

theorem isDirectory_eq_of_key_eq
    {path other : Path}
    (same : tree.key path = tree.key other) :
    tree.toFileSystem.isDirectory path = tree.toFileSystem.isDirectory other :=
  congrArg (fun kind => decide (kind = some FileKind.directory))
    (stat_eq_of_key_eq same)

/-- Paths that lead the same way have one key. -/
theorem key_eq_of_sameWay
    {first second : Path}
    (same : first.SameWay second)
    (tree : FileTree) : tree.key first = tree.key second := by
  unfold key comparable
  rw [same.normalize_eq]

/-- Paths that lead the same way lead to one node. -/
theorem node?_eq_of_sameWay
    {first second : Path}
    (same : first.SameWay second)
    (tree : FileTree) : tree.node? first = tree.node? second :=
  node?_eq_of_key_eq (key_eq_of_sameWay same tree)

theorem stat_eq_of_sameWay
    {first second : Path}
    (same : first.SameWay second)
    (tree : FileTree) : tree.stat first = tree.stat second :=
  stat_eq_of_key_eq (key_eq_of_sameWay same tree)

/-- What is chosen as the spelling of a path is normal. -/
theorem isNormal_canonicalize
    (keyed : tree.Keyed)
    (path : Path) : (tree.canonicalize path).IsNormal := by
  unfold canonicalize
  cases found : tree.node? path with
  | none => exact Path.isNormal_normalize path
  | some node => exact (keyed _ node found).1

/-- The canonical spelling of a path has the key of the path. -/
theorem key_canonicalize
    (keyed : tree.Keyed)
    (path : Path) : tree.key (tree.canonicalize path) = tree.key path := by
  unfold canonicalize
  cases found : tree.node? path with
  | none => exact key_normalize tree path
  | some node => exact (keyed _ node found).2.symm

/-- The canonical path leads where the path does. -/
theorem node?_canonicalize
    (keyed : tree.Keyed)
    (path : Path) : tree.node? (tree.canonicalize path) = tree.node? path :=
  node?_eq_of_key_eq (key_canonicalize keyed path)

/-- A canonical path is its own canonical spelling. -/
theorem canonicalize_canonicalize
    (keyed : tree.Keyed)
    (path : Path) :
    tree.canonicalize (tree.canonicalize path) = tree.canonicalize path := by
  rw [canonicalize, node?_canonicalize keyed]
  cases found : tree.node? path with
  | none => simp [canonicalize, found]
  | some node => simp [canonicalize, found]

/-- Paths that lead the same way have one canonical path. -/
theorem canonicalize_eq_of_sameWay
    {first second : Path}
    (same : first.SameWay second)
    (tree : FileTree) : tree.canonicalize first = tree.canonicalize second := by
  rw [canonicalize, canonicalize, node?_eq_of_sameWay same, same.normalize_eq]

/-- What stands at a path stands at its canonical spelling. -/
theorem stat_canonicalize
    (keyed : tree.Keyed)
    (path : Path) : tree.stat (tree.canonicalize path) = tree.stat path :=
  stat_eq_of_key_eq (key_canonicalize keyed path)

/-- The key of a path starts at the root when the path does. -/
theorem head?_key_eq_root_iff (tree : FileTree) (path : Path) :
    (tree.key path).head? = some .root ↔ path.isAbsolute = true := by
  unfold key comparable
  split
  all_goals simp [← Path.isAbsolute_iff]

/-- A path and its canonical spelling are both absolute or both relative. -/
theorem isAbsolute_canonicalize
    (keyed : tree.Keyed)
    (path : Path) : (tree.canonicalize path).isAbsolute = path.isAbsolute := by
  rw [Bool.eq_iff_iff, ← head?_key_eq_root_iff tree, key_canonicalize keyed,
    head?_key_eq_root_iff]

/-! ### Keys of composed paths -/

/-- Paths are compared in a normal form, with or without case. -/
theorem isNormal_comparable (caseSensitive : Bool) (path : Path) :
    (comparable caseSensitive path).IsNormal := by
  unfold comparable
  split
  · exact Path.isNormal_normalize path
  · rw [Path.foldCase_normalize]
    exact Path.isNormal_normalize path.foldCase

/-- Paths with one key are compared in one spelling. -/
theorem comparable_eq_of_key_eq
    {first second : Path}
    (same : tree.key first = tree.key second) :
    comparable tree.caseSensitive first =
      comparable tree.caseSensitive second :=
  (isNormal_comparable _ first).eq_of_sameWay
    (isNormal_comparable _ second) same

/-- Paths with one key still have one key after one path is joined to both. -/
theorem key_join_eq_of_key_eq
    {first second : Path}
    (same : tree.key first = tree.key second)
    (last : Path) :
    tree.key (first.join last) = tree.key (second.join last) := by
  have spelled := comparable_eq_of_key_eq same
  unfold key comparable at *
  split_ifs at *
  · rw [← Path.normalize_join first, ← Path.normalize_join second, spelled]
  · have joined (path : Path) :
        (path.join last).normalize.foldCase =
          (path.normalize.foldCase.join last.foldCase).normalize := by
      rw [Path.foldCase_normalize, Path.foldCase_join, Path.foldCase_normalize,
        Path.normalize_join]
    rw [joined, joined, spelled]

/-- Normal paths with one key still have one key after one text is written
after both. -/
theorem key_append_eq_of_key_eq
    {first second : Path}
    (firstNormal : first.IsNormal)
    (secondNormal : second.IsNormal)
    (same : tree.key first = tree.key second)
    (suffix : String) :
    tree.key (first.append suffix) = tree.key (second.append suffix) := by
  have spelled := comparable_eq_of_key_eq same
  unfold key comparable at *
  rw [firstNormal, secondNormal] at spelled
  split_ifs at *
  · rw [spelled]
  · rw [Path.foldCase_normalize, Path.foldCase_normalize, Path.foldCase_append,
      Path.foldCase_append, spelled]

/-! ### Letters of different case told apart -/

section Sensitive

variable (sensitive : tree.caseSensitive = true)

include sensitive

/-- Where case counts, the key is the normal path as it is. -/
theorem key_of_sensitive
    (path : Path) : tree.key path = path.normalize.components := by
  rw [key, comparable, sensitive, if_pos rfl]

/-- Where letters of different case are told apart, paths with one normal form
have one canonical spelling. -/
theorem canonicalize_eq_of_normalize_eq
    {path other : Path}
    (same : path.normalize = other.normalize) :
    tree.canonicalize path = tree.canonicalize other := by
  rw [canonicalize, canonicalize, node?, node?, key_of_sensitive sensitive,
    key_of_sensitive sensitive, same]

/-- That spelling is the normal form. -/
theorem canonicalize_of_sensitive
    (keyed : tree.Keyed)
    (path : Path) : tree.canonicalize path = path.normalize := by
  have sameKey := key_canonicalize keyed path
  rw [key_of_sensitive sensitive, key_of_sensitive sensitive,
    isNormal_canonicalize keyed path] at sameKey
  exact (isNormal_canonicalize keyed path).eq_of_sameWay
    (Path.isNormal_normalize path) sameKey

end Sensitive

/-! ### Letters of different case taken for one -/

section Insensitive

variable (insensitive : tree.caseSensitive = false)

include insensitive

/-- Where case does not count, the key is the normal path in lower case. -/
theorem key_of_insensitive (path : Path) :
    tree.key path = path.normalize.foldCase.components := by
  rw [key, comparable, insensitive, if_neg Bool.false_ne_true]

/-- Paths that lead the same way in lower case have one key. -/
theorem key_eq_of_sameWay_foldCase
    {path other : Path}
    (same : path.foldCase.SameWay other.foldCase) :
    tree.key path = tree.key other := by
  rw [key_of_insensitive insensitive, key_of_insensitive insensitive,
    Path.foldCase_normalize, Path.foldCase_normalize, same.normalize_eq]

/-- Normal paths with one key have the same steps in lower case. -/
theorem map_foldCase_eq_of_key_eq
    {path other : Path}
    (normal : path.IsNormal)
    (otherNormal : other.IsNormal)
    (same : tree.key path = tree.key other) :
    path.components.map Component.foldCase =
      other.components.map Component.foldCase := by
  rwa [key_of_insensitive insensitive, key_of_insensitive insensitive, normal,
    otherNormal, Path.components_foldCase, Path.components_foldCase] at same

end Insensitive

/-! ### Files that can be read -/

/-- There are no more canonical paths that can be read than the tree has
files. -/
theorem length_le_fileCount
    {paths : List Path}
    (distinct : paths.Nodup)
    (files : ∀ path ∈ paths,
      tree.canonicalize path = path ∧ (tree.read path).isOk = true) :
    paths.length ≤ tree.fileCount := by
  let entries :=
    tree.nodes.toList.filter fun entry => entry.2.entry ≠ .directory
  have spelled : paths ⊆ entries.map (·.2.path) := by
    intro path listed
    obtain ⟨isCanonical, readable⟩ := files path listed
    cases found : tree.node? path with
    | none => simp [read, found, Except.isOk, Except.toBool] at readable
    | some node =>
        obtain ⟨spelling, entry⟩ := node
        obtain rfl : spelling = path := by
          simpa [canonicalize, found] using isCanonical
        cases entry with
        | directory =>
            simp [read, found, Except.isOk, Except.toBool] at readable
        | file text =>
            have kept := Std.TreeMap.mem_toList_iff_getElem?_eq_some.mpr found
            exact List.mem_map.mpr ⟨_, List.mem_filter.mpr ⟨kept, by simp⟩, rfl⟩
  calc paths.length ≤ (entries.map (·.2.path)).length :=
    (List.subperm_of_subset distinct spelled).length_le
      _ = tree.fileCount := by
          rw [List.length_map, fileCount, List.countP_eq_length_filter]

/-- A file in a tree can be read. -/
theorem read_eq_ok_of_stat
    {path : Path}
    (isFile : tree.stat path = some .file) :
    ∃ text, tree.read path = .ok text := by
  unfold stat at isFile
  obtain ⟨⟨spelling, entry⟩, found, kind⟩ := Option.map_eq_some_iff.mp isFile
  cases entry with
  | file text => exact ⟨text, by simp [read, found]⟩
  | directory => cases kind

end Canonical

end FileTree

/-- Nothing is a file and a directory at once. -/
theorem FileSystem.not_isFile_of_isDirectory
    {fileSystem : FileSystem}
    {path : Path}
    (isDirectory : fileSystem.isDirectory path = true) :
    ¬ fileSystem.isFile path = true := by
  unfold FileSystem.isDirectory at isDirectory
  unfold FileSystem.isFile
  rw [of_decide_eq_true isDirectory]
  decide

/-- A file system that chooses one spelling among all that lead the same
way. -/
structure FileSystem.Canonical (fileSystem : FileSystem) : Prop where
  /-- The spelling chosen is its own choice. -/
  canonicalize_canonicalize : ∀ path,
    fileSystem.canonicalize (fileSystem.canonicalize path) =
      fileSystem.canonicalize path
  /-- One spelling is chosen for all of them. -/
  canonicalize_eq_of_sameWay : ∀ first second : Path, first.SameWay second →
    fileSystem.canonicalize first = fileSystem.canonicalize second

/-- Canonical paths that lead the same way are one path. -/
theorem FileSystem.Canonical.eq_of_sameWay
    {fileSystem : FileSystem}
    (canonical : fileSystem.Canonical)
    {first second : Path}
    (isFirst : fileSystem.canonicalize first = first)
    (isSecond : fileSystem.canonicalize second = second)
    (same : first.SameWay second) : first = second := by
  rw [← isFirst, ← isSecond]
  exact canonical.canonicalize_eq_of_sameWay first second same

/-- The spelling that a tree chooses is the one under which a node was put. -/
theorem FileTree.Built.canonical
    {tree : FileTree}
    (built : tree.Built) : tree.toFileSystem.Canonical where
  canonicalize_canonicalize := FileTree.canonicalize_canonicalize built.keyed
  canonicalize_eq_of_sameWay _ _ same :=
  FileTree.canonicalize_eq_of_sameWay same tree

end CommonJs
