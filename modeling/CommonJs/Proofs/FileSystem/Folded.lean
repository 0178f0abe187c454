import CommonJs.Proofs.FileSystem.History

/-!
# Trees whose case is folded

Where case is no longer told apart, the nodes whose paths are equal in lower
case fall together. The last of them in the order of paths remains as it was,
be it a file or a directory, and nothing else is changed: a place that was
taken stays taken, and nodes whose paths differ in lower case stay apart. In
a tree whose case is folded already, no two nodes fall together any more.
-/

namespace CommonJs

/-- Paths that are one where letters of different case are not told apart. -/
def Path.FallsTogether (path other : Path) : Prop :=
  path.normalize.foldCase = other.normalize.foldCase

instance (path other : Path) : Decidable (path.FallsTogether other) :=
  inferInstanceAs
    (Decidable (path.normalize.foldCase = other.normalize.foldCase))

namespace FileTree

/-- A node stands somewhere in a tree. -/
def Keeps (tree : FileTree) (node : Node) : Prop :=
  ∃ key : List Component, tree.nodes[key]? = some node

/-- The last node in the order of paths among those whose paths fall together
with a path. -/
structure LastTogether
    (tree : FileTree)
    (path : Path)
    (node : Node) : Prop where
  /-- The node is one of the tree. -/
  kept : tree.Keeps node
  /-- Its path falls together with the path. -/
  together : node.path.FallsTogether path
  /-- No such node has a greater path. -/
  last : ∀ other, tree.Keeps other → other.path.FallsTogether path →
    (compare other.path.components node.path.components).isLE = true

/-- The nodes of a tree are those that it lists. -/
theorem keeps_iff_mem (tree : FileTree) (node : Node) :
    tree.Keeps node ↔ node ∈ tree.nodes.toList.map (·.2) := by
  rw [List.mem_map]
  constructor
  · rintro ⟨key, stored⟩
    exact ⟨(key, node),
      Std.TreeMap.mem_toList_iff_getElem?_eq_some.mpr stored, rfl⟩
  · rintro ⟨⟨key, kept⟩, listed, rfl⟩
    exact ⟨key, Std.TreeMap.mem_toList_iff_getElem?_eq_some.mp listed⟩

instance (tree : FileTree) (node : Node) : Decidable (tree.Keeps node) :=
  decidable_of_iff _ (tree.keeps_iff_mem node).symm

instance (tree : FileTree) (path : Path) (node : Node) :
    Decidable (tree.LastTogether path node) :=
  decidable_of_iff
    (tree.Keeps node ∧ node.path.FallsTogether path ∧
      ∀ other ∈ tree.nodes.toList.map (·.2), other.path.FallsTogether path →
        (compare other.path.components node.path.components).isLE = true)
    ⟨fun ⟨kept, together, last⟩ =>
      ⟨kept, together, fun other keeps =>
        last other ((tree.keeps_iff_mem other).mp keeps)⟩,
    fun ⟨kept, together, last⟩ =>
      ⟨kept, together, fun other listed =>
        last other ((tree.keeps_iff_mem other).mpr listed)⟩⟩

/-- Paths fall together when they have one key in lower case. -/
theorem fallsTogether_iff (path other : Path) :
    path.FallsTogether other ↔ keyIn false path = keyIn false other := by
  constructor
  · exact congrArg Path.components
  · exact (isNormal_comparable false path).eq_of_sameWay
      (isNormal_comparable false other)

/-! ## What remains at a key -/

@[simp] theorem caseSensitive_ignoringCase (tree : FileTree) :
    tree.ignoringCase.caseSensitive = false := by
  unfold ignoringCase
  generalize tree.nodes.toList = entries
  have start : (⟨∅, false⟩ : FileTree).caseSensitive = false := rfl
  generalize (⟨∅, false⟩ : FileTree) = folded at start
  induction entries generalizing folded with
  | nil => exact start
  | cons entry others inductionHypothesis => exact inductionHypothesis _ start

/-- The last entry of an ascending list is the one that none comes after. -/
theorem getLast?_eq_some_iff_of_ascending
    {entries : List (List Component × Node)}
    (ascending : entries.Pairwise fun entry later =>
      compare entry.1 later.1 = .lt)
    (last : List Component × Node) :
    entries.getLast? = some last ↔
      last ∈ entries ∧
        ∀ entry ∈ entries, (compare entry.1 last.1).isLE = true := by
  rcases List.eq_nil_or_concat entries with none | ⟨before, final, shape⟩
  · simp [none]
  · rw [List.concat_eq_append] at shape
    subst shape
    have below : ∀ entry ∈ before, compare entry.1 final.1 = .lt :=
      fun entry earlier =>
        (List.pairwise_append.mp ascending).2.2 entry earlier final
          List.mem_cons_self
    rw [List.getLast?_concat, Option.some.injEq]
    constructor
    · rintro rfl
      refine ⟨by simp, fun entry present => ?_⟩
      rcases List.mem_append.mp present with earlier | isFinal
      · simp [below entry earlier]
      · simp [List.mem_singleton.mp isFinal, Std.ReflCmp.compare_self]
    · rintro ⟨present, greatest⟩
      rcases List.mem_append.mp present with earlier | isFinal
      · have after := greatest final (by simp)
        have before : compare final.1 last.1 = .gt :=
          Std.OrientedCmp.gt_iff_lt.mpr (below last earlier)
        rw [before] at after
        cases after
      · exact (List.mem_singleton.mp isFinal).symm

/-! ## What stands at a path -/

/-- In a folded tree the last node stands of those at a key. -/
theorem node?_ignoringCase (tree : FileTree) (path : Path) :
    tree.ignoringCase.node? path =
      (tree.entriesAt (keyIn false path)).getLast?.map (·.2) := by
  rw [node?, key_eq_keyIn, caseSensitive_ignoringCase, getElem?_ignoringCase]

/-- Something stands where there is a node. -/
theorem isSome_stat (tree : FileTree) (path : Path) :
    (tree.stat path).isSome = (tree.node? path).isSome :=
  Option.isSome_map

/-- A place is taken as soon as the path of some node falls together with it. -/
theorem isSome_node?_ignoringCase (tree : FileTree) (path : Path) :
    (tree.ignoringCase.node? path).isSome = true ↔
      ∃ node, tree.Keeps node ∧ node.path.FallsTogether path := by
  rw [node?, key_eq_keyIn, caseSensitive_ignoringCase,
    ← Std.TreeMap.mem_iff_isSome_getElem?,
    mem_nodes_ignoringCase_iff_exists_node]
  constructor
  · rintro ⟨key, node, stored, sameKey⟩
    exact ⟨node, ⟨key, stored⟩, (fallsTogether_iff _ _).mpr sameKey⟩
  · rintro ⟨node, ⟨key, stored⟩, together⟩
    exact ⟨key, node, stored, (fallsTogether_iff _ _).mp together⟩

/-- The path of a node leads to the node. -/
theorem node?_of_keeps
    {tree : FileTree}
    {node : Node}
    (keyed : tree.Keyed)
    (kept : tree.Keeps node) : tree.node? node.path = some node := by
  obtain ⟨key, stored⟩ := kept
  rw [node?, ← (keyed key node stored).2, stored]

section Sensitive

variable {tree : FileTree} (keyed : tree.Keyed)
  (sensitive : tree.caseSensitive = true)
include keyed sensitive

/-- The nodes are put anew in the order of their keys, which are their paths. -/
theorem eq_components_of_stored
    {key : List Component}
    {node : Node}
    (stored : tree.nodes[key]? = some node) : key = node.path.components := by
  obtain ⟨normal, isKey⟩ := keyed key node stored
  rw [isKey, key_of_sensitive sensitive, normal]

/-- Where the case has been folded, the last of the nodes that fall together
with a path stands at it. -/
theorem node?_ignoringCase_eq_some_iff (path : Path) (node : Node) :
    tree.ignoringCase.node? path = some node ↔ tree.LastTogether path node := by
  have isPath {key : List Component} {node : Node}
      (stored : tree.nodes[key]? = some node) :=
    eq_components_of_stored keyed sensitive stored
  have ascending := Std.TreeMap.ordered_keys_toList (t := tree.nodes)
  have isLast := getLast?_eq_some_iff_of_ascending
    (ascending.filter fun entry => keyIn false entry.2.path = keyIn false path)
  rw [node?_ignoringCase, Option.map_eq_some_iff]
  constructor
  · rintro ⟨⟨key, node⟩, remains, rfl⟩
    obtain ⟨present, greatest⟩ := (isLast _).mp remains
    obtain ⟨stored, sameKey⟩ := mem_entriesAt.mp present
    refine ⟨⟨key, stored⟩, (fallsTogether_iff _ _).mpr sameKey, ?_⟩
    rintro other ⟨otherKey, otherStored⟩ together
    have before := greatest (otherKey, other)
      (mem_entriesAt.mpr ⟨otherStored, (fallsTogether_iff _ _).mp together⟩)
    rwa [isPath stored, isPath otherStored] at before
  · rintro ⟨⟨key, stored⟩, together, last⟩
    refine ⟨(key, node),
      (isLast _).mpr ⟨mem_entriesAt.mpr ⟨stored, ?_⟩, ?_⟩, rfl⟩
    · exact (fallsTogether_iff _ _).mp together
    · rintro ⟨otherKey, other⟩ present
      obtain ⟨otherStored, sameKey⟩ := mem_entriesAt.mp present
      rw [isPath stored, isPath otherStored]
      exact last other ⟨otherKey, otherStored⟩
        ((fallsTogether_iff _ _).mpr sameKey)

/-- Nothing that was there disappears. -/
theorem isSome_stat_ignoringCase_of_isSome
    {path : Path}
    (taken : (tree.stat path).isSome = true) :
    (tree.ignoringCase.stat path).isSome = true := by
  rw [isSome_stat] at taken ⊢
  obtain ⟨node, found⟩ := Option.isSome_iff_exists.mp taken
  have spelled : tree.canonicalize path = node.path := by
    rw [canonicalize, found]
  rw [canonicalize_of_sensitive sensitive keyed] at spelled
  refine (tree.isSome_node?_ignoringCase path).mpr ⟨node, ⟨_, found⟩, ?_⟩
  rw [Path.FallsTogether, ← spelled, Path.normalize_normalize]

/-- Where something stands in the folded tree, some node is the last. -/
theorem exists_lastTogether
    {path : Path}
    (taken : (tree.ignoringCase.stat path).isSome = true) :
    ∃ node, tree.LastTogether path node := by
  rw [isSome_stat] at taken
  obtain ⟨node, found⟩ := Option.isSome_iff_exists.mp taken
  exact ⟨node,
    (node?_ignoringCase_eq_some_iff keyed sensitive path node).mp found⟩

/-- The last node that falls together with a path shows as it was. -/
theorem shows_of_lastTogether
    {path : Path}
    {node : Node}
    (last : tree.LastTogether path node) :
    tree.ignoringCase.stat path = tree.stat node.path ∧
      (tree.ignoringCase.read path).toOption = (tree.read node.path).toOption ∧
      tree.ignoringCase.canonicalize path = node.path := by
  have found :=
    (node?_ignoringCase_eq_some_iff keyed sensitive path node).mpr last
  have before := node?_of_keeps keyed last.kept
  refine ⟨?_, ?_, ?_⟩
  · rw [stat, stat, found, before]
  · rw [toOption_read, toOption_read, found, before]
  · rw [canonicalize, found]

/-- Nodes become one exactly when their paths fall together. -/
theorem node?_ignoringCase_eq_iff_fallsTogether
    {first : Node}
    (kept : tree.Keeps first)
    (second : Node) :
    tree.ignoringCase.node? first.path = tree.ignoringCase.node? second.path ↔
      first.path.FallsTogether second.path := by
  constructor
  · intro merged
    have taken :=
      (tree.isSome_node?_ignoringCase first.path).mpr ⟨first, kept, rfl⟩
    obtain ⟨node, found⟩ := Option.isSome_iff_exists.mp taken
    have together (path : Path)
        (stands : tree.ignoringCase.node? path = some node) :
        node.path.FallsTogether path :=
      ((node?_ignoringCase_eq_some_iff keyed sensitive path node).mp
        stands).together
    exact (together _ found).symm.trans (together _ (merged.symm.trans found))
  · intro together
    apply node?_eq_of_key_eq
    rw [key_eq_keyIn, key_eq_keyIn, caseSensitive_ignoringCase]
    exact (fallsTogether_iff _ _).mp together

end Sensitive

/-! ## Trees whose case is folded already -/

section Insensitive

variable {tree : FileTree} (keyed : tree.Keyed)
  (insensitive : tree.caseSensitive = false)
include keyed insensitive

/-- Where the case is folded already, each node stays where it is. -/
theorem getElem?_ignoringCase_of_insensitive (key : List Component) :
    tree.ignoringCase.nodes[key]? = tree.nodes[key]? := by
  have placed {key : List Component} {node : Node}
      (stored : tree.nodes[key]? = some node) :
      keyIn false node.path = key := by
    rw [(keyed key node stored).2, key_eq_keyIn, insensitive]
  rw [getElem?_ignoringCase]
  cases remains : (tree.entriesAt key).getLast? with
  | some entry =>
      obtain ⟨stored, sameKey⟩ :=
        mem_entriesAt.mp (List.mem_of_getLast? remains)
      rw [← sameKey, placed stored, stored]
      rfl
  | none =>
      cases stored : tree.nodes[key]? with
      | none => rfl
      | some node =>
          have present : (key, node) ∈ tree.entriesAt key :=
            mem_entriesAt.mpr ⟨stored, placed stored⟩
          rw [List.getLast?_eq_none_iff.mp remains] at present
          cases present

/-- A tree in which case does not count cannot be folded any further. -/
theorem toFileSystem_ignoringCase_of_insensitive :
    tree.ignoringCase.toFileSystem = tree.toFileSystem := by
  have sameCase : tree.ignoringCase.caseSensitive = tree.caseSensitive := by
    rw [insensitive, caseSensitive_ignoringCase]
  apply toFileSystem_eq_of_node?_eq keyed.ignoringCase keyed sameCase
  intro place
  rw [node?, key_eq_keyIn, sameCase,
    getElem?_ignoringCase_of_insensitive keyed insensitive]
  rfl

end Insensitive

/-! ## The folded tree -/

/-- However a tree is built by insertions, after its case has been folded
something stands at a path exactly when the path of a node falls together with
it; so nothing that was there disappears. It is the last such node in the order
of paths that stands there, of its kind, with its text and in its spelling.
Two nodes become one exactly when their paths fall together. To fold the case
once more changes nothing. -/
theorem ignoringCase_keeps_last_together (insertions : List Insertion) :
    let tree := ofInsertions true insertions
    let folded := tree.ignoringCase
    (∀ path, (folded.stat path).isSome = true ↔
      ∃ node, tree.Keeps node ∧ node.path.FallsTogether path) ∧
    (∀ path, (tree.stat path).isSome = true →
      (folded.stat path).isSome = true) ∧
    (∀ path, (folded.stat path).isSome = true → ∃ node,
      tree.LastTogether path node) ∧
    (∀ path node, tree.LastTogether path node →
      folded.stat path = tree.stat node.path ∧
        (folded.read path).toOption = (tree.read node.path).toOption ∧
        folded.canonicalize path = node.path) ∧
    (∀ first second, tree.Keeps first → tree.Keeps second →
      (folded.node? first.path = folded.node? second.path ↔
        first.path.FallsTogether second.path)) ∧
    folded.ignoringCase.caseSensitive = folded.caseSensitive ∧
    folded.ignoringCase.nodes.Equiv folded.nodes ∧
    folded.ignoringCase.toFileSystem = folded.toFileSystem := by
  intro tree folded
  have keyed : tree.Keyed := (built_ofInsertions true insertions).keyed
  have sensitive : tree.caseSensitive = true :=
    caseSensitive_ofInsertions true insertions
  have foldedKeyed : folded.Keyed := keyed.ignoringCase
  have insensitive : folded.caseSensitive = false :=
    tree.caseSensitive_ignoringCase
  have same := getElem?_ignoringCase_of_insensitive foldedKeyed insensitive
  refine ⟨fun path => ?_, fun path =>
    isSome_stat_ignoringCase_of_isSome keyed sensitive,
    fun path => exists_lastTogether keyed sensitive,
    fun path node => shows_of_lastTogether keyed sensitive,
    fun first second kept _ =>
      node?_ignoringCase_eq_iff_fallsTogether keyed sensitive kept second,
    ?_, .of_forall_constGet?_eq same,
    toFileSystem_ignoringCase_of_insensitive foldedKeyed insensitive⟩
  · rw [isSome_stat]
    exact tree.isSome_node?_ignoringCase path
  · rw [insensitive, caseSensitive_ignoringCase]

/-- A file and a directory, with something in it, whose paths fall together,
and a file apart from both. -/
def collidingTree : List Insertion :=
  [.file (.ofString "/p/X.js") "1", .file (.ofString "/P/x.JS/d") "2",
    .file (.ofString "/p/y.js") "3"]

/-- Of two files that fall together one is left, with its own spelling and
text. -/
theorem ignoringCase_keeps_last_together_collidingTree :
    let folded := (ofInsertions true collidingTree).ignoringCase
    folded.stat (.ofString "/P/./x.js") = some .file ∧
      (folded.read (.ofString "/P/./x.js")).toOption = some "1" ∧
      folded.canonicalize (.ofString "/P/./x.js") = .ofString "/p/X.js" ∧
      (folded.stat (.ofString "/p/X.js/D")).isSome = true ∧
      folded.node? (.ofString "/p/X.js") = folded.node? (.ofString "/P/x.JS") ∧
      folded.node? (.ofString "/p/X.js") ≠
        folded.node? (.ofString "/p/y.js") := by
  intro folded
  obtain ⟨isTaken, _, _, shows, merged, _⟩ :=
    ignoringCase_keeps_last_together collidingTree
  have last : (ofInsertions true collidingTree).LastTogether
      (.ofString "/P/./x.js")
      ⟨.ofString "/p/X.js", .file "1"⟩ := by decide +kernel
  have shown := shows _ _ last
  have file : (ofInsertions true collidingTree).Keeps
      ⟨.ofString "/p/X.js", .file "1"⟩ := last.kept
  have directory : (ofInsertions true collidingTree).Keeps
      ⟨.ofString "/P/x.JS", .directory⟩ := by decide +kernel
  have apart : (ofInsertions true collidingTree).Keeps
      ⟨.ofString "/p/y.js", .file "3"⟩ := by decide +kernel
  refine ⟨shown.1.trans (by decide +kernel),
    shown.2.1.trans (by decide +kernel), shown.2.2, ?_,
    (merged _ _ file directory).mpr (by decide +kernel),
    (merged _ _ file apart).not.mpr (by decide +kernel)⟩
  exact (isTaken _).mpr
    ⟨⟨.ofString "/P/x.JS/d", .file "2"⟩, by decide +kernel, by decide +kernel⟩

end FileTree
end CommonJs
