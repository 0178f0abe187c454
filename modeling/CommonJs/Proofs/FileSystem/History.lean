import CommonJs.Proofs.FileSystem.Enclosed
import Mathlib.Data.List.Nodup

/-!
# What a history of insertions means

A tree that insertions build shows what the last insertion of a file put at a
place, and else whether any insertion needed a directory there. A later
insertion takes no file away and does not spell a directory anew. So the tree
can be read off its history place by place; and where letters of different
case are told apart and no two files are put at one place, the order of the
insertions leaves no trace.
-/

namespace CommonJs

/-- One change to a tree. -/
inductive Insertion
  | file (path : Path) (text : String)
  | directory (path : Path)
  deriving DecidableEq

namespace Insertion

open FileTree (keyIn)

/-- The path of what is put in. -/
def path : Insertion → Path
  | file path _ => path
  | directory path => path

/-- The file that an insertion puts at a place, with the path it is given. -/
def fileAt?
    (caseSensitive : Bool)
    (place : Path) : Insertion → Option (Path × String)
  | file path text =>
      if keyIn caseSensitive path = keyIn caseSensitive place then
        some (path, text) else none
  | directory _ => none

/-- The directories that an insertion needs: an inserted directory itself and
everything above it, or everything above an inserted file. -/
def directories : Insertion → List Path
  | file path _ => path.normalize.ancestors.tail
  | directory path => path.normalize.ancestors

/-- The directory that an insertion needs at a place, as the insertion spells
it. -/
def directoryAt?
    (caseSensitive : Bool)
    (place : Path)
    (insertion : Insertion) : Option Path :=
  insertion.directories.find? fun above =>
    keyIn caseSensitive above = keyIn caseSensitive place

/-- The key of the file that an insertion inserts. -/
def fileKey? (caseSensitive : Bool) : Insertion → Option (List Component)
  | file path _ => some (keyIn caseSensitive path)
  | directory _ => none

end Insertion

namespace FileTree

/-- The tree after one more insertion. -/
def insert (tree : FileTree) : Insertion → FileTree
  | .file path text => tree.insertFile path text
  | .directory path => tree.insertDirectory path

/-- The tree without nodes that tells letters of different case apart or not. -/
def emptyIn (caseSensitive : Bool) : FileTree :=
  if caseSensitive then .empty else FileTree.empty.ignoringCase

/-- The tree that is built by insertions, one after the other. -/
def ofInsertions
    (caseSensitive : Bool)
    (insertions : List Insertion) : FileTree :=
  insertions.foldl insert (emptyIn caseSensitive)

@[simp] theorem emptyIn_eq
    (caseSensitive : Bool) : emptyIn caseSensitive = ⟨∅, caseSensitive⟩ := by
  cases caseSensitive with
  | true => rfl
  | false =>
      have nothing : (∅ : PathMap Node).toList = [] := by
        rw [← List.isEmpty_iff, Std.TreeMap.isEmpty_toList,
          Std.TreeMap.isEmpty_emptyc]
      simp [emptyIn, ignoringCase, empty, nothing]

@[simp] theorem caseSensitive_insert (tree : FileTree) (insertion : Insertion) :
    (tree.insert insertion).caseSensitive = tree.caseSensitive := by
  cases insertion with
  | file path text =>
      obtain ⟨around, sameCase, _, isPut⟩ := tree.insertFile_eq_putNode path
      rw [insert, isPut, ← sameCase]
      rfl
  | directory path => exact caseSensitive_insertDirectory tree path

@[simp] theorem caseSensitive_ofInsertions
    (caseSensitive : Bool)
    (insertions : List Insertion) :
    (ofInsertions caseSensitive insertions).caseSensitive = caseSensitive := by
  induction insertions using List.reverseRecOn with
  | nil => simp [ofInsertions]
  | append_singleton insertions insertion inductionHypothesis =>
      rw [ofInsertions, List.foldl_append]
      exact (caseSensitive_insert _ insertion).trans inductionHypothesis

/-! ## One insertion -/

/-- There is a place above each step of an absolute path. -/
theorem filter_ancestors_of_isAbsolute
    {path : Path}
    (absolute : path.isAbsolute = true) :
    path.normalize.ancestors.filter (·.chars ≠ []) =
      path.normalize.ancestors := by
  rw [List.filter_eq_self]
  intro ancestor above
  have ancestorAbsolute := Path.isAbsolute_of_mem_ancestors
    ((Path.isAbsolute_normalize path).trans absolute) ancestor above
  have nonempty : ancestor.chars ≠ [] := by
    intro empty
    simp [Path.isAbsolute, empty] at ancestorAbsolute
  simpa using nonempty

/-- A directory with an absolute path comes with all directories above it. -/
theorem insertDirectory_of_isAbsolute
    {path : Path}
    (absolute : path.isAbsolute = true)
    (tree : FileTree) :
    tree.insertDirectory path =
      path.normalize.ancestors.foldl fillDirectory tree := by
  rw [insertDirectory, filter_ancestors_of_isAbsolute absolute]

/-- A file is put after the directories above it have been made. -/
theorem insertFile_of_isAbsolute
    {path : Path}
    (absolute : path.isAbsolute = true)
    (tree : FileTree)
    (text : String) :
    tree.insertFile path text =
      (path.normalize.ancestors.tail.foldl fillDirectory tree).putNode
        ⟨path.normalize, .file text⟩ := by
  cases isParent : path.normalize.parent with
  | none =>
      rw [insertFile_of_parent_eq_none tree isParent,
        Path.ancestors_of_parent_eq_none isParent]
      rfl
  | some above =>
      have higher : above ∈ path.normalize.ancestors := by
        rw [Path.ancestors_of_parent isParent]
        exact List.mem_cons_of_mem _ (Path.self_mem_ancestors above)
      have aboveAbsolute := Path.isAbsolute_of_mem_ancestors
        ((Path.isAbsolute_normalize path).trans absolute) above higher
      have nonempty : above.chars ≠ [] := by
        intro empty
        simp [Path.isAbsolute, empty] at aboveAbsolute
      have normal : above.normalize = above :=
        isNormal_of_mem_ancestors higher nonempty
      rw [insertFile_of_parent tree isParent,
        insertDirectory_of_isAbsolute aboveAbsolute, normal,
        Path.ancestors_of_parent isParent, List.tail_cons]

/-- A file takes the place of what was there; a directory does not. -/
theorem node?_insert
    {insertion : Insertion}
    (absolute : insertion.path.isAbsolute = true)
    (tree : FileTree)
    (place : Path) :
    (tree.insert insertion).node? place =
      (((insertion.fileAt? tree.caseSensitive place).map fun file =>
          ⟨file.1.normalize, .file file.2⟩).or (tree.node? place)).or
        ((insertion.directoryAt? tree.caseSensitive place).map fun above =>
          ⟨above, .directory⟩) := by
  rw [node?, key_eq_keyIn, caseSensitive_insert]
  cases insertion with
  | file path text =>
      have fileAbsolute : path.isAbsolute = true := absolute
      rw [insert, insertFile_of_isAbsolute fileAbsolute, getElem?_putNode,
        getElem?_foldl_fillDirectory, key_normalize, key_eq_keyIn,
        caseSensitive_foldl_fillDirectory]
      by_cases isPlace : keyIn tree.caseSensitive path =
        keyIn tree.caseSensitive place
      · rw [if_pos isPlace, Insertion.fileAt?, if_pos isPlace]
        rfl
      · rw [if_neg isPlace, Insertion.fileAt?, if_neg isPlace]
        rfl
  | directory path =>
      have directoryAbsolute : path.isAbsolute = true := absolute
      rw [insert, insertDirectory_of_isAbsolute directoryAbsolute,
        getElem?_foldl_fillDirectory]
      rfl

/-! ## All insertions -/

/-- The last insertion is made into the tree of those before it. -/
theorem ofInsertions_append_singleton
    (caseSensitive : Bool)
    (insertions : List Insertion)
    (insertion : Insertion) :
    ofInsertions caseSensitive (insertions ++ [insertion]) =
      (ofInsertions caseSensitive insertions).insert insertion := by
  rw [ofInsertions, List.foldl_append]
  rfl

/-- What stands at a place is the last file that was put there, or else the
first directory that was needed there. -/
theorem node?_ofInsertions
    (caseSensitive : Bool)
    {insertions : List Insertion}
    (absolute : ∀ insertion ∈ insertions, insertion.path.isAbsolute = true)
    (place : Path) :
    (ofInsertions caseSensitive insertions).node? place =
      ((insertions.filterMap
          (Insertion.fileAt? caseSensitive place)).getLast?.map fun file =>
          ⟨file.1.normalize, .file file.2⟩).or
        ((insertions.findSome? (Insertion.directoryAt? caseSensitive place)).map
          fun above => ⟨above, .directory⟩) := by
  induction insertions using List.reverseRecOn with
  | nil => simp [ofInsertions, node?]
  | append_singleton insertions insertion inductionHypothesis =>
      have earlier := inductionHypothesis fun other present =>
        absolute other (List.mem_append_left _ present)
      rw [ofInsertions_append_singleton,
        node?_insert (absolute insertion (by simp)), earlier,
        caseSensitive_ofInsertions, List.filterMap_append, List.getLast?_append,
        List.findSome?_append, Option.map_or, Option.map_or, ← Option.or_assoc,
        ← Option.or_assoc]
      cases atPlace : insertion.fileAt? caseSensitive place <;>
        cases needed : insertion.directoryAt? caseSensitive place <;>
          simp [atPlace, needed]

/-- Insertions make a tree the way trees are made. -/
theorem built_ofInsertions
    (caseSensitive : Bool)
    (insertions : List Insertion) :
    (ofInsertions caseSensitive insertions).Built := by
  induction insertions using List.reverseRecOn with
  | nil =>
      cases caseSensitive with
      | true => exact .empty
      | false => exact .ignoringCase .empty
  | append_singleton insertions insertion inductionHypothesis =>
      rw [ofInsertions_append_singleton]
      cases insertion with
      | file path text => exact inductionHypothesis.insertFile path text
      | directory path => exact inductionHypothesis.insertDirectory path

/-! ## The order of insertions -/

/-- Trees that cannot be told apart at any place are one file system. -/
theorem toFileSystem_eq_of_node?_eq
    {tree other : FileTree}
    (keyed : tree.Keyed)
    (otherKeyed : other.Keyed)
    (sameCase : tree.caseSensitive = other.caseSensitive)
    (sameNodes : ∀ place, tree.node? place = other.node? place) :
    tree.toFileSystem = other.toFileSystem := by
  have sameKeys (place : Path) : tree.key place = other.key place := by
    rw [key, key, sameCase]
  have same : tree.nodes.Equiv other.nodes := by
    apply Std.TreeMap.Equiv.of_forall_constGet?_eq
    intro key
    apply Option.ext
    intro node
    constructor
    · intro stored
      have isKey := (keyed key node stored).2
      rw [isKey, sameKeys]
      rw [isKey] at stored
      exact (sameNodes node.path).symm.trans stored
    · intro stored
      have isKey := (otherKeyed key node stored).2
      rw [isKey, ← sameKeys]
      rw [isKey] at stored
      exact (sameNodes node.path).trans stored
  have sameStat : tree.stat = other.stat := by
    funext place
    rw [stat, stat, sameNodes]
  have sameRead : tree.read = other.read := by
    funext place
    rw [read, read, sameNodes]
  have sameSpelling : tree.canonicalize = other.canonicalize := by
    funext place
    rw [canonicalize, canonicalize, sameNodes]
  have sameFiles : tree.fileCount = other.fileCount := by
    rw [fileCount, fileCount, same.toList_eq]
  have sameTexts : tree.textSize = other.textSize := by
    rw [textSize, textSize, same.toList_eq]
  unfold toFileSystem
  rw [sameStat, sameRead, sameSpelling, sameCase, sameFiles, same.size_eq,
    sameTexts]

/-- If no two files are put at one place, at most one is put at each. -/
theorem length_filterMap_fileAt?_le_one
    {caseSensitive : Bool}
    {insertions : List Insertion}
    (distinct : (insertions.filterMap (Insertion.fileKey? caseSensitive)).Nodup)
    (place : Path) :
    (insertions.filterMap
      (Insertion.fileAt? caseSensitive place)).length ≤ 1 := by
  -- The files at the place are counted by their keys, which are all the same.
  have counted :
      (insertions.filterMap (Insertion.fileAt? caseSensitive place)).length =
        (insertions.filterMap (Insertion.fileKey? caseSensitive)).count
          (keyIn caseSensitive place) := by
    clear distinct
    induction insertions with
    | nil => rfl
    | cons insertion others inductionHypothesis =>
        cases insertion with
        | directory path => exact inductionHypothesis
        | file path text =>
            by_cases isPlace : keyIn caseSensitive path =
              keyIn caseSensitive place
            · simp [Insertion.fileAt?, Insertion.fileKey?, isPlace,
                inductionHypothesis]
            · simp [Insertion.fileAt?, Insertion.fileKey?, isPlace,
                inductionHypothesis]
  rw [counted]
  exact List.nodup_iff_count_le_one.mp distinct _

/-- Where letters of different case are told apart, all insertions spell a
directory alike. -/
theorem eq_normalize_of_directoryAt?
    {insertion : Insertion}
    {place above : Path}
    (absolute : insertion.path.isAbsolute = true)
    (needed : insertion.directoryAt? true place = some above) :
    above = place.normalize := by
  have present : above ∈ insertion.path.normalize.ancestors := by
    cases insertion with
    | file path text =>
        exact List.mem_of_mem_tail (List.mem_of_find?_eq_some needed)
    | directory path => exact List.mem_of_find?_eq_some needed
  rw [← filter_ancestors_of_isAbsolute absolute, List.mem_filter] at present
  have normal : above.IsNormal :=
    isNormal_of_mem_ancestors present.1 (by simpa using present.2)
  have sameKey : keyIn true above = keyIn true place := by
    simpa using List.find?_some needed
  have sameWay : above.normalize.SameWay place.normalize := sameKey
  rw [normal] at sameWay
  exact normal.eq_of_sameWay (Path.isNormal_normalize place) sameWay

/-- A directory at a place is needed in its normal spelling, as soon as any
insertion needs one there. -/
theorem findSome?_directoryAt?_eq_some_iff
    {insertions : List Insertion}
    {place : Path}
    (absolute : ∀ insertion ∈ insertions, insertion.path.isAbsolute = true)
    (above : Path) :
    insertions.findSome? (Insertion.directoryAt? true place) = some above ↔
      above = place.normalize ∧
        ∃ insertion ∈ insertions,
          (insertion.directoryAt? true place).isSome = true := by
  constructor
  · intro found
    obtain ⟨insertion, present, needed⟩ :=
      List.exists_of_findSome?_eq_some found
    exact ⟨eq_normalize_of_directoryAt? (absolute insertion present) needed,
      insertion, present, Option.isSome_of_eq_some needed⟩
  · rintro ⟨rfl, insertion, present, needed⟩
    have found : (insertions.findSome?
        (Insertion.directoryAt? true place)).isSome = true := by
      rw [List.findSome?_isSome_iff]
      exact ⟨insertion, present, needed⟩
    obtain ⟨other, isFound⟩ := Option.isSome_iff_exists.mp found
    obtain ⟨first, firstPresent, firstNeeded⟩ :=
      List.exists_of_findSome?_eq_some isFound
    rw [isFound,
      eq_normalize_of_directoryAt? (absolute first firstPresent) firstNeeded]

/-- Which directory is needed at a place does not depend on the order of the
insertions where they spell it alike. -/
theorem findSome?_directoryAt?_of_perm
    {insertions others : List Insertion}
    (reordered : insertions.Perm others)
    (absolute : ∀ insertion ∈ insertions, insertion.path.isAbsolute = true)
    (place : Path) :
    insertions.findSome? (Insertion.directoryAt? true place) =
      others.findSome? (Insertion.directoryAt? true place) := by
  have otherAbsolute : ∀ insertion ∈ others, insertion.path.isAbsolute = true :=
    fun insertion present => absolute insertion (reordered.mem_iff.mpr present)
  apply Option.ext
  intro above
  rw [findSome?_directoryAt?_eq_some_iff absolute,
    findSome?_directoryAt?_eq_some_iff otherAbsolute]
  simp only [reordered.mem_iff]

/-- A tree means its history. Each place shows the file that was put there last,
in the spelling of that insertion, or else the directory that was needed there
first, in the spelling of that one, or else nothing. In particular, where
letters of different case are told apart and no two files have one key, the
same insertions in another order build the same file system. -/
theorem ofInsertions_shows_last_file_or_first_directory :
    (∀ (caseSensitive : Bool) (insertions : List Insertion),
      (∀ insertion ∈ insertions, insertion.path.isAbsolute = true) →
        ∀ place : Path,
          match (insertions.filterMap
              (Insertion.fileAt? caseSensitive place)).getLast?,
            insertions.findSome?
              (Insertion.directoryAt? caseSensitive place) with
          | some (path, text), _ =>
              (ofInsertions caseSensitive insertions).stat place = some .file ∧
                (ofInsertions caseSensitive insertions).read place = .ok text ∧
                (ofInsertions caseSensitive insertions).canonicalize place =
                  path.normalize
          | none, some above =>
              (ofInsertions caseSensitive insertions).stat place =
                  some .directory ∧
                (ofInsertions caseSensitive insertions).canonicalize
                  place = above
          | none, none =>
              (ofInsertions caseSensitive insertions).stat place = none ∧
                (ofInsertions caseSensitive insertions).canonicalize place =
                  place.normalize) ∧
    ∀ insertions others : List Insertion,
      (∀ insertion ∈ insertions, insertion.path.isAbsolute = true) →
        insertions.Perm others →
          (insertions.filterMap (Insertion.fileKey? true)).Nodup →
            (ofInsertions true insertions).toFileSystem =
              (ofInsertions true others).toFileSystem := by
  constructor
  · intro caseSensitive insertions absolute place
    have shown := node?_ofInsertions caseSensitive absolute place
    unfold stat read canonicalize
    rw [shown]
    cases (insertions.filterMap
      (Insertion.fileAt? caseSensitive place)).getLast? with
    | some file => exact ⟨rfl, rfl, rfl⟩
    | none =>
        cases insertions.findSome?
          (Insertion.directoryAt? caseSensitive place) with
        | some above => exact ⟨rfl, rfl⟩
        | none => exact ⟨rfl, rfl⟩
  · intro insertions others absolute reordered distinct
    have otherAbsolute :
        ∀ insertion ∈ others, insertion.path.isAbsolute = true :=
      fun insertion present =>
        absolute insertion (reordered.mem_iff.mpr present)
    apply toFileSystem_eq_of_node?_eq (built_ofInsertions true insertions).keyed
      (built_ofInsertions true others).keyed (by simp)
    intro place
    have files := reordered.filterMap (Insertion.fileAt? true place)
    have atMostOne := length_filterMap_fileAt?_le_one distinct place
    have sameFiles :
        insertions.filterMap (Insertion.fileAt? true place) =
          others.filterMap (Insertion.fileAt? true place) := by
      match shape : insertions.filterMap (Insertion.fileAt? true place) with
      | [] => rw [shape] at files; exact files.nil_eq
      | [file] => rw [shape] at files; exact List.singleton_perm.mp files
      | _ :: _ :: _ => simp [shape] at atMostOne
    rw [node?_ofInsertions true absolute, node?_ofInsertions true otherAbsolute,
      sameFiles, findSome?_directoryAt?_of_perm reordered absolute]

/-- A file whose directory is spelled anew, a directory in the place of the
file, and the file once more. -/
def respelled : List Insertion :=
  [.file (.ofString "/P/x.js") "1", .directory (.ofString "/p/X.js/d"),
    .file (.ofString "/p/X.JS") "2"]

/-- The last text and spelling of a file count, and the first spelling of a
directory. -/
theorem ofInsertions_shows_last_file_or_first_directory_respelled :
    (ofInsertions false respelled).read (.ofString "/p/x.js") = .ok "2" ∧
      (ofInsertions false respelled).canonicalize (.ofString "/p/x.js") =
        .ofString "/p/X.JS" ∧
      (ofInsertions false respelled).canonicalize (.ofString "/p/") =
        .ofString "/P" ∧
      (ofInsertions false respelled).stat (.ofString "/p/y") = none ∧
      (ofInsertions true respelled).toFileSystem =
        (ofInsertions true respelled.reverse).toFileSystem := by
  obtain ⟨shows, reordered⟩ := ofInsertions_shows_last_file_or_first_directory
  have absolute : ∀ insertion ∈ respelled,
      insertion.path.isAbsolute = true := by decide +kernel
  have file := shows false respelled absolute (.ofString "/p/x.js")
  have directory := shows false respelled absolute (.ofString "/p/")
  have nothing := shows false respelled absolute (.ofString "/p/y")
  rw [show (respelled.filterMap
      (Insertion.fileAt? false (.ofString "/p/x.js"))).getLast? =
    some (.ofString "/p/X.JS", "2") by decide +kernel] at file
  rw [show (respelled.filterMap
      (Insertion.fileAt? false (.ofString "/p/"))).getLast? = none by
      decide +kernel,
    show respelled.findSome? (Insertion.directoryAt? false (.ofString "/p/")) =
      some (.ofString "/P") by decide +kernel] at directory
  rw [show (respelled.filterMap
      (Insertion.fileAt? false (.ofString "/p/y"))).getLast? = none by
      decide +kernel,
    show respelled.findSome?
      (Insertion.directoryAt? false (.ofString "/p/y")) = none by
      decide +kernel] at nothing
  exact ⟨file.2.1, file.2.2, directory.2, nothing.1,
    reordered _ _ absolute (List.reverse_perm respelled).symm
      (by decide +kernel)⟩

end FileTree
end CommonJs
