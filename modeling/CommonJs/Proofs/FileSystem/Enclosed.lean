import CommonJs.Proofs.FileSystem.Shape
import CommonJs.Proofs.Path.Ancestors

/-!
# Trees without gaps

A tree that is built by insertions has something above everything that is in
it: with each key it has the keys that the steps before lead to. To fold the
case of the letters keeps that, because it changes the names in a key one by
one, and the nodes that fall together were above the same nodes. The key of a
path and its canonical spelling then say the same of it.
-/

namespace CommonJs

/-- A step as it is compared: in lower case, unless letters of different case
are told apart. -/
def Component.comparable
    (caseSensitive : Bool)
    (step : Component) : Component :=
  if caseSensitive then step else step.foldCase

@[simp] theorem Component.foldCase_foldCase (step : Component) :
    step.foldCase.foldCase = step.foldCase := by
  have lower (char : Char) : char.toLower.toLower = char.toLower := by
    unfold Char.toLower
    grind
  cases step with
  | name chars => simp [foldCase, lower]
  | _ => rfl

/-- What is in lower case by choice is in lower case anyway. -/
@[simp] theorem Component.foldCase_comparable
    (caseSensitive : Bool)
    (step : Component) :
    (step.comparable caseSensitive).foldCase = step.foldCase := by
  unfold comparable
  split
  · rfl
  · exact step.foldCase_foldCase

namespace FileTree

/-! ## Keys and their steps -/

/-- The key of a path where letters of different case are told apart or not. -/
def keyIn (caseSensitive : Bool) (path : Path) : List Component :=
  (comparable caseSensitive path).components

/-- The key depends on the tree only by whether case counts. -/
theorem key_eq_keyIn (tree : FileTree) (path : Path) :
    tree.key path = keyIn tree.caseSensitive path := rfl

/-- The key of a path is made of its normal components, each one compared for
itself. -/
theorem keyIn_eq_map (caseSensitive : Bool) (path : Path) :
    keyIn caseSensitive path =
      path.normalize.components.map (Component.comparable caseSensitive) := by
  unfold keyIn comparable
  cases caseSensitive with
  | true => exact (List.map_id _).symm
  | false => exact Path.components_foldCase _

/-- Every key has a step, if only the one that stays where it is. -/
theorem keyIn_ne_nil
    (caseSensitive : Bool)
    (path : Path) : keyIn caseSensitive path ≠ [] := by
  rw [keyIn_eq_map, Ne, List.map_eq_nil_iff, Path.components_normalize]
  split
  · simp
  · assumption

/-- The parent of a normal path has the key of the path without its last
step. -/
theorem keyIn_of_parent
    {path above : Path}
    (caseSensitive : Bool)
    (normal : path.IsNormal)
    (isParent : path.parent = some above)
    (nonempty : above.chars ≠ []) :
    keyIn caseSensitive above = (keyIn caseSensitive path).dropLast := by
  have aboveNormal := (normal.of_parent isParent).resolve_left nonempty
  rw [keyIn_eq_map, keyIn_eq_map, aboveNormal, normal,
    Path.components_of_parent isParent, List.map_dropLast]

/-- The keys of the ancestors of a path are those that its key begins with. -/
theorem mem_map_keyIn_ancestors_iff
    (caseSensitive : Bool)
    (path : Path)
    (key : List Component) :
    key ∈ (path.normalize.ancestors.filter (·.chars ≠ [])).map
        (keyIn caseSensitive) ↔
      key ≠ [] ∧ key <+: keyIn caseSensitive path := by
  rw [keyIn_eq_map caseSensitive path, List.prefix_map_iff, List.mem_map]
  constructor
  · rintro ⟨ancestor, present, rfl⟩
    obtain ⟨above, nonempty⟩ := List.mem_filter.mp present
    have nonempty : ancestor.chars ≠ [] := by simpa using nonempty
    have notTop : ancestor.components ≠ [] :=
      (Path.components_eq_nil_iff ancestor).not.mpr nonempty
    refine ⟨keyIn_ne_nil _ ancestor, ancestor.components, ?_, ?_⟩
    · rw [← Path.mem_map_components_ancestors_iff notTop]
      exact List.mem_map_of_mem above
    · rw [keyIn_eq_map, isNormal_of_mem_ancestors above nonempty]
  · rintro ⟨nonempty, steps, begins, rfl⟩
    have notTop : steps ≠ [] := by simpa using nonempty
    obtain ⟨ancestor, above, rfl⟩ :=
      List.mem_map.mp
        ((Path.mem_map_components_ancestors_iff notTop _).mpr begins)
    have nonempty : ancestor.chars ≠ [] :=
      (Path.components_eq_nil_iff ancestor).not.mp notTop
    refine ⟨ancestor, List.mem_filter.mpr ⟨above, by simpa using nonempty⟩, ?_⟩
    rw [keyIn_eq_map, isNormal_of_mem_ancestors above nonempty]

/-! ## The directories above a path -/

/-- The first of several directories that has a key fills it, unless it is
taken. -/
theorem getElem?_foldl_fillDirectory
    (tree : FileTree)
    (paths : List Path)
    (key : List Component) :
    (paths.foldl fillDirectory tree).nodes[key]? =
      tree.nodes[key]?.or
        ((paths.find? fun path => tree.key path = key).map fun path =>
          ⟨path, .directory⟩) := by
  induction paths generalizing tree with
  | nil => simp
  | cons path others inductionHypothesis =>
      have sameKeys : (tree.fillDirectory path).key = tree.key := rfl
      rw [List.foldl_cons, inductionHypothesis, sameKeys, fillDirectory,
        Std.TreeMap.getElem?_insertIfNew]
      simp only [Std.compare_eq_iff_eq, Std.TreeMap.mem_iff_isSome_getElem?]
      by_cases isKey : tree.key path = key
      · subst isKey
        cases tree.nodes[tree.key path]? <;> simp
      · simp [isKey]

/-- A node that is put takes the place of the one with its key. -/
theorem getElem?_putNode
    (tree : FileTree)
    (node : Node)
    (key : List Component) :
    (tree.putNode node).nodes[key]? =
      if tree.key node.path = key then some node else tree.nodes[key]? := by
  unfold putNode
  rw [Std.TreeMap.getElem?_insert]
  simp only [Std.compare_eq_iff_eq]

/-- No other key comes in with a node that is put. -/
theorem mem_nodes_putNode
    (tree : FileTree)
    (node : Node)
    (key : List Component) :
    key ∈ (tree.putNode node).nodes ↔ key = tree.key node.path ∨
      key ∈ tree.nodes := by
  unfold putNode
  rw [Std.TreeMap.mem_insert, Std.compare_eq_iff_eq, eq_comm]

/-- The directories that are made for a path have the keys that its key begins
with. -/
theorem mem_nodes_insertDirectory
    (tree : FileTree)
    (path : Path)
    (key : List Component) :
    key ∈ (tree.insertDirectory path).nodes ↔
      (key ≠ [] ∧ key <+: tree.key path) ∨ key ∈ tree.nodes := by
  have sameKeys : tree.key = keyIn tree.caseSensitive := rfl
  rw [Std.TreeMap.mem_iff_isSome_getElem?, insertDirectory,
    getElem?_foldl_fillDirectory, Option.isSome_or, Bool.or_eq_true,
    Option.isSome_map, List.find?_isSome, ← Std.TreeMap.mem_iff_isSome_getElem?,
    or_comm, sameKeys, ← mem_map_keyIn_ancestors_iff, List.mem_map]
  simp only [decide_eq_true_eq]

/-! ## Trees without gaps -/

/-- With each key, a tree has the key that lacks the last step. -/
def Enclosed (tree : FileTree) : Prop :=
  ∀ key ∈ tree.nodes, key.dropLast ≠ [] → key.dropLast ∈ tree.nodes

theorem Enclosed.insertDirectory
    {tree : FileTree}
    (enclosed : tree.Enclosed)
    (path : Path) : (tree.insertDirectory path).Enclosed := by
  intro key present notTop
  rw [mem_nodes_insertDirectory] at present ⊢
  rcases present with ⟨_, begins⟩ | old
  · exact Or.inl ⟨notTop, (List.dropLast_prefix key).trans begins⟩
  · exact Or.inr (enclosed key old notTop)

/-- A node may be put where its directory stands. -/
theorem Enclosed.putNode
    {tree : FileTree}
    {node : Node}
    (enclosed : tree.Enclosed)
    (above : (tree.key node.path).dropLast ≠ [] →
      (tree.key node.path).dropLast ∈ tree.nodes) :
        (tree.putNode node).Enclosed := by
  intro key present notTop
  rw [mem_nodes_putNode] at present ⊢
  rcases present with rfl | old
  · exact Or.inr (above notTop)
  · exact Or.inr (enclosed key old notTop)

/-- A file is put after the directories above it. -/
theorem insertFile_of_parent
    {path above : Path}
    (tree : FileTree)
    (isParent : path.normalize.parent = some above)
    (text : String) :
    tree.insertFile path text =
      (tree.insertDirectory above).putNode ⟨path.normalize, .file text⟩ := by
  rw [insertFile, isParent]

theorem insertFile_of_parent_eq_none
    {path : Path}
    (tree : FileTree)
    (isTop : path.normalize.parent = none)
    (text : String) :
    tree.insertFile path text = tree.putNode ⟨path.normalize, .file text⟩ := by
  rw [insertFile, isTop]

/-- What a key without its last step leads to is made before a file is. -/
theorem Enclosed.insertFile
    {tree : FileTree}
    (enclosed : tree.Enclosed)
    (path : Path)
    (text : String) : (tree.insertFile path text).Enclosed := by
  have normal := Path.isNormal_normalize path
  have dropped (tree : FileTree) :
      (tree.key path.normalize).dropLast =
        path.normalize.components.dropLast.map
          (Component.comparable tree.caseSensitive) := by
    rw [key_eq_keyIn, keyIn_eq_map, normal, List.map_dropLast]
  cases isParent : path.normalize.parent with
  | none =>
      rw [insertFile_of_parent_eq_none tree isParent]
      apply enclosed.putNode
      intro notTop
      rw [dropped] at notTop
      rcases (Path.parent_eq_none_iff _).mp isParent with top | top
      · simp [top] at notTop
      · simp [top] at notTop
  | some above =>
      rw [insertFile_of_parent tree isParent]
      apply (enclosed.insertDirectory above).putNode
      intro notTop
      rw [dropped, ← Path.components_of_parent isParent] at notTop
      have nonempty : above.chars ≠ [] := by
        intro empty
        simp [(Path.components_eq_nil_iff above).mpr empty] at notTop
      rw [mem_nodes_insertDirectory, key_eq_keyIn, key_eq_keyIn,
        caseSensitive_insertDirectory,
        ← keyIn_of_parent _ normal isParent nonempty]
      exact Or.inl ⟨keyIn_ne_nil _ _, List.prefix_rfl⟩

/-! ## Folding the case -/

/-- Of several nodes that are put at one key, the last one stays. -/
theorem getElem?_foldl_putNode
    (tree : FileTree)
    (entries : List (List Component × Node))
    (key : List Component) :
    (entries.foldl (fun folded entry => folded.putNode entry.2)
        tree).nodes[key]? =
      ((entries.filter fun entry => tree.key entry.2.path = key).getLast?.map
          (·.2)).or
        tree.nodes[key]? := by
  induction entries generalizing tree with
  | nil => simp
  | cons entry others inductionHypothesis =>
      have sameKeys : (tree.putNode entry.2).key = tree.key := rfl
      rw [List.foldl_cons, inductionHypothesis, sameKeys, getElem?_putNode,
        List.filter_cons]
      by_cases isKey : tree.key entry.2.path = key
      · rw [if_pos isKey, if_pos (decide_eq_true isKey), List.getLast?_cons]
        generalize (others.filter fun entry =>
          tree.key entry.2.path = key).getLast? = later
        cases later <;> rfl
      · simp [isKey]

/-- The nodes whose paths have a key in lower case, in the order in which they
are put anew. -/
def entriesAt
    (tree : FileTree)
    (key : List Component) : List (List Component × Node) :=
  tree.nodes.toList.filter fun entry => keyIn false entry.2.path = key

/-- The entries at a key are the nodes whose folded paths have it. -/
theorem mem_entriesAt
    {tree : FileTree}
    {key : List Component}
    {entry : List Component × Node} :
    entry ∈ tree.entriesAt key ↔
      tree.nodes[entry.1]? = some entry.2 ∧ keyIn false entry.2.path = key := by
  rw [entriesAt, List.mem_filter, Std.TreeMap.mem_toList_iff_getElem?_eq_some,
    decide_eq_true_iff]

/-- The last of the nodes that have a key in lower case is left at it. -/
theorem getElem?_ignoringCase (tree : FileTree) (key : List Component) :
    tree.ignoringCase.nodes[key]? =
      (tree.entriesAt key).getLast?.map (·.2) := by
  unfold ignoringCase
  rw [getElem?_foldl_putNode, Std.TreeMap.getElem?_emptyc, Option.or_none]
  rfl

/-- A folded tree has the keys of the folded paths. -/
theorem mem_nodes_ignoringCase_iff_exists_node
    (tree : FileTree)
    (key : List Component) :
    key ∈ tree.ignoringCase.nodes ↔
      ∃ (old : List Component) (node : Node),
        tree.nodes[old]? = some node ∧ keyIn false node.path = key := by
  rw [Std.TreeMap.mem_iff_isSome_getElem?, getElem?_ignoringCase,
    Option.isSome_map, List.getLast?_isSome]
  constructor
  · intro nonempty
    obtain ⟨⟨old, node⟩, present⟩ := List.exists_mem_of_ne_nil _ nonempty
    exact ⟨old, node, mem_entriesAt.mp present⟩
  · rintro ⟨old, node, placed⟩
    have present : (old, node) ∈ tree.entriesAt key := mem_entriesAt.mpr placed
    exact List.ne_nil_of_mem present

/-- The keys that are left when case is ignored are those of the nodes in lower
case. -/
theorem mem_nodes_ignoringCase
    {tree : FileTree}
    (keyed : tree.Keyed)
    (key : List Component) :
    key ∈ tree.ignoringCase.nodes ↔
      ∃ old ∈ tree.nodes, old.map Component.foldCase = key := by
  have folded {old : List Component} {node : Node}
      (stored : tree.nodes[old]? = some node) :
      keyIn false node.path = old.map Component.foldCase := by
    rw [(keyed old node stored).2, key_eq_keyIn, keyIn_eq_map, keyIn_eq_map,
      List.map_map]
    exact List.map_congr_left fun step _ => (step.foldCase_comparable _).symm
  rw [mem_nodes_ignoringCase_iff_exists_node]
  constructor
  · rintro ⟨old, node, stored, sameKey⟩
    refine ⟨old,
      Std.TreeMap.mem_iff_isSome_getElem?.mpr (by rw [stored]; rfl), ?_⟩
    rw [← folded stored, sameKey]
  · rintro ⟨old, present, sameKey⟩
    obtain ⟨node, stored⟩ := Option.isSome_iff_exists.mp
      (Std.TreeMap.mem_iff_isSome_getElem?.mp present)
    exact ⟨old, node, stored, (folded stored).trans sameKey⟩

/-- What is above a path falls together with what is above its folded path. -/
theorem Enclosed.ignoringCase
    {tree : FileTree}
    (enclosed : tree.Enclosed)
    (keyed : tree.Keyed) : tree.ignoringCase.Enclosed := by
  intro key present notTop
  rw [mem_nodes_ignoringCase keyed] at present ⊢
  obtain ⟨old, stored, rfl⟩ := present
  rw [← List.map_dropLast] at notTop ⊢
  exact ⟨old.dropLast,
    enclosed old stored (List.map_eq_nil_iff.not.mp notTop), rfl⟩

/-- Trees are made by steps that put nothing without its directory. -/
theorem Built.enclosed
    {tree : FileTree}
    (built : tree.Built) : tree.Enclosed := by
  induction built with
  | empty => intro key present; simp [FileTree.empty] at present
  | insertFile path text _ enclosed => exact enclosed.insertFile path text
  | insertDirectory path _ enclosed => exact enclosed.insertDirectory path
  | ignoringCase built enclosed => exact enclosed.ignoringCase built.keyed

/-! ## Keys and canonical paths -/

/-- Where something is, two paths have one canonical spelling exactly when they
have one key. -/
theorem canonicalize_eq_iff_key_eq
    {tree : FileTree}
    (keyed : tree.Keyed)
    {path : Path}
    (present : (tree.stat path).isSome = true)
    (other : Path) :
    tree.canonicalize path = tree.canonicalize other ↔
      tree.key path = tree.key other := by
  constructor
  · intro same
    rw [← key_canonicalize keyed path, same, key_canonicalize keyed]
  · intro same
    unfold stat at present
    rw [canonicalize, canonicalize, ← node?_eq_of_key_eq same]
    cases found : tree.node? path with
    | some node => rfl
    | none => simp [found] at present

/-- Whatever insertions and foldings of case a tree is built by, each node in it
has a normal path and is kept under the key of that path, and the parent of
each key is a key, unless it is the empty path. So the canonical spelling of a
path is its own canonical spelling, there is the same at it as at the path, and
it can be read as the path can. Where something is, two paths have one
canonical spelling exactly when they have one key. -/
theorem nodes_keyed_enclosed_and_canonical
    {tree : FileTree}
    (built : tree.Built) :
    (∀ key node, tree.nodes[key]? = some node →
      node.path.IsNormal ∧ key = tree.key node.path ∧
        ∀ parent,
          (comparable tree.caseSensitive node.path).parent = some parent →
          parent.chars ≠ [] → parent.components ∈ tree.nodes) ∧
    ∀ path,
      tree.canonicalize (tree.canonicalize path) = tree.canonicalize path ∧
        tree.stat (tree.canonicalize path) = tree.stat path ∧
        (tree.read (tree.canonicalize path)).toOption =
          (tree.read path).toOption ∧
        ((tree.stat path).isSome = true → ∀ other,
          tree.canonicalize path = tree.canonicalize other ↔
            tree.key path = tree.key other) := by
  have keyed := built.keyed
  refine ⟨fun key node stored => ?_, fun path => ?_⟩
  · obtain ⟨normal, isKey⟩ := keyed key node stored
    refine ⟨normal, isKey, fun parent isParent nonempty => ?_⟩
    have present : key ∈ tree.nodes :=
      Std.TreeMap.mem_iff_isSome_getElem?.mpr (by rw [stored]; rfl)
    have above : parent.components = key.dropLast := by
      rw [isKey]
      exact Path.components_of_parent isParent
    rw [above]
    apply built.enclosed key present
    rw [← above, Ne, Path.components_eq_nil_iff]
    exact nonempty
  · refine ⟨canonicalize_canonicalize keyed path,
      stat_canonicalize keyed path, ?_,
      fun present => canonicalize_eq_iff_key_eq keyed present⟩
    rw [toOption_read, toOption_read, node?_canonicalize keyed]

/-- A tree whose case is folded after a directory has been made in a second
spelling and before a file is put into it in a third one. -/
def regrownTree : FileTree :=
  (((FileTree.empty.insertFile (.ofString "/P/Lib/A.js") "1").insertDirectory
    (.ofString "/p/lib")).ignoringCase).insertFile (.ofString "/p/LIB/b.js") "2"

/-- A tree that was folded and grown again has one spelling for a file that is
asked for in two ways. -/
theorem nodes_keyed_enclosed_and_canonical_regrownTree :
    regrownTree.canonicalize (.ofString "/p/x/../lib/B.JS") =
        regrownTree.canonicalize (.ofString "/P/LIB/b.js") ∧
      regrownTree.canonicalize (.ofString "/p/lib/B.JS") ≠
        regrownTree.canonicalize (.ofString "/p/lib/a.js") ∧
      (regrownTree.read
          (regrownTree.canonicalize (.ofString "/p/lib/a.js"))).toOption =
        some "1" := by
  have built : regrownTree.Built :=
    .insertFile _ _
      (.ignoringCase (.insertDirectory _ (.insertFile _ _ .empty)))
  have canonical := (nodes_keyed_enclosed_and_canonical built).2
  refine ⟨?_, ?_, ?_⟩
  · exact ((canonical _).2.2.2 (by decide +kernel) _).mpr (by decide +kernel)
  · exact ((canonical _).2.2.2 (by decide +kernel) _).not.mpr
      (by decide +kernel)
  · rw [(canonical _).2.2.1]
    decide +kernel

end FileTree
end CommonJs
