import CommonJs.Proofs.Resolver.Priority

/-!
# Resolutions name canonical files

However a search ends with a file, be it a candidate, a main file, an index
or a replacement, the file is there and is given in its canonical spelling.
Without browser fields, all candidates of an absolute context are absolute.
So the path that a request leads to is a specifier of its own, and it leads
to the same file wherever it is read.
-/

namespace CommonJs
namespace Resolver

/-- A finding that is a file of a tree in its canonical spelling, or none. -/
def NamesCanonicalFile (tree : FileTree) (finding : Finding) : Prop :=
  ∀ path, finding = .file path →
    tree.toFileSystem.isFile path = true ∧ tree.canonicalize path = path

/-- The canonical spelling of a file is a file, and its own spelling. -/
theorem namesCanonicalFile_canonicalize
    {tree : FileTree}
    (keyed : tree.Keyed)
    {candidate : Path}
    (isFile : tree.toFileSystem.isFile candidate = true) :
    NamesCanonicalFile tree (.file (tree.canonicalize candidate)) := by
  intro path isPath
  rw [← Finding.file.inj isPath]
  refine ⟨?_, FileTree.canonicalize_canonicalize keyed candidate⟩
  have sameKind := FileTree.stat_canonicalize keyed candidate
  have isFile' : tree.stat candidate = some .file := of_decide_eq_true isFile
  exact decide_eq_true (sameKind.trans isFile')

/-- Whatever a memo holds, every search in a tree ends with canonical files. -/
theorem tracks_namesCanonicalFile
    {tree : FileTree}
    (keyed : tree.Keyed)
    (config : ResolverConfig) :
    Tracks ⟨tree.toFileSystem, config⟩ (fun _ => True)
      (NamesCanonicalFile tree) where
  describe _ _ _ := trivial
  file _ isFile := namesCanonicalFile_canonicalize keyed isFile
  stub := by simp [NamesCanonicalFile]
  missingReplacement := by simp [NamesCanonicalFile]

/-! ## Absolute candidates -/

section Absolute

variable (resolver : Resolver)

/-- An extension is appended to a last name, and keeps the root. -/
theorem isAbsolute_of_mem_fileCandidates
    {base candidate : Path}
    (absolute : base.isAbsolute = true)
    (present : candidate ∈ resolver.fileCandidates base) :
    candidate.isAbsolute = true := by
  rcases List.mem_cons.mp present with self | extended
  · rw [self]
    exact absolute
  · obtain ⟨extension, _, rfl⟩ := List.mem_map.mp extended
    exact Path.isAbsolute_append absolute extension

theorem isAbsolute_of_mem_indexCandidates
    {directory candidate : Path}
    (absolute : directory.isAbsolute = true)
    (present : candidate ∈ resolver.indexCandidates directory) :
    candidate.isAbsolute = true := by
  obtain ⟨extension, _, rfl⟩ := List.mem_map.mp present
  exact Path.isAbsolute_join absolute _

theorem isAbsolute_child_normalize
    {directory : Path}
    (absolute : directory.isAbsolute = true)
    (name : String) : (directory.child name).normalize.isAbsolute = true := by
  rw [Path.isAbsolute_normalize]
  exact Path.isAbsolute_join absolute _

/-- The files of an absolute directory are absolute, those of its main
included. -/
theorem isAbsolute_of_mem_directoryFiles
    {directory candidate : Path}
    (absolute : directory.isAbsolute = true)
    (present : candidate ∈ resolver.directoryFiles directory) :
    candidate.isAbsolute = true := by
  rcases List.mem_append.mp present with main | index
  · unfold mainFiles at main
    split at main
    next name _ =>
      have mainAbsolute := isAbsolute_child_normalize absolute name
      rcases List.mem_append.mp main with file | index
      · exact resolver.isAbsolute_of_mem_fileCandidates mainAbsolute file
      · split at index
        · cases index
        · exact resolver.isAbsolute_of_mem_indexCandidates mainAbsolute index
    next => cases main
  · exact resolver.isAbsolute_of_mem_indexCandidates absolute index

theorem isAbsolute_of_mem_pathFiles
    {target candidate : Path}
    (absolute : target.isAbsolute = true)
    (present : candidate ∈ resolver.pathFiles target) :
    candidate.isAbsolute = true := by
  rcases List.mem_append.mp present with file | inside
  · exact resolver.isAbsolute_of_mem_fileCandidates absolute file
  · split at inside
    · exact resolver.isAbsolute_of_mem_directoryFiles absolute inside
    · cases inside

theorem isAbsolute_of_mem_packageCandidates
    {context directory : Path}
    {name : String}
    (absolute : context.isAbsolute = true)
    (present : directory ∈ resolver.packageCandidates context name) :
    directory.isAbsolute = true := by
  obtain ⟨ancestor, above, root, _, rfl⟩ :=
    exists_root_of_mem_packageCandidates present
  have ancestorAbsolute :=
    Path.isAbsolute_of_mem_ancestors absolute ancestor above
  exact Path.isAbsolute_join (Path.isAbsolute_join ancestorAbsolute _) _

/-- By all three ways a specifier leads from an absolute context to absolute
places. -/
theorem isAbsolute_of_mem_moduleFiles
    {context candidate : Path}
    {specifier : String}
    (absolute : context.isAbsolute = true)
    (present : candidate ∈ resolver.moduleFiles context specifier) :
    candidate.isAbsolute = true := by
  unfold moduleFiles at present
  split at present
  · exact resolver.isAbsolute_of_mem_pathFiles
      (isAbsolute_child_normalize absolute specifier) present
  · obtain ⟨directory, candidates, inPackage⟩ := List.mem_flatMap.mp present
    have directoryAbsolute :=
      resolver.isAbsolute_of_mem_packageCandidates absolute
        (List.mem_filter.mp candidates).1
    unfold packageFiles at inPackage
    split at inPackage
    next path _ =>
      exact resolver.isAbsolute_of_mem_pathFiles
        (isAbsolute_child_normalize directoryAbsolute path) inPackage
    next =>
      exact resolver.isAbsolute_of_mem_directoryFiles directoryAbsolute
        inPackage

end Absolute

/-- Without browser fields, what is found from an absolute context is
absolute. -/
theorem isAbsolute_of_resolve
    {tree : FileTree}
    (keyed : tree.Keyed)
    {config : ResolverConfig}
    (plain : config.browser = false)
    {memo next : DescriptorMemo}
    (remembers : Remembers ⟨tree.toFileSystem, config⟩ memo)
    {context path : Path}
    {specifier : String}
    {origin : Option Path}
    {result : ResolveResult}
    (outcome :
      resolve ⟨tree.toFileSystem, config⟩ memo context specifier origin =
        some (result, next))
    (leads : result.resolution = .path path)
    (absolute : context.isAbsolute = true) : path.isAbsolute = true := by
  obtain ⟨candidate, present, _, rfl⟩ :=
    exists_candidate_of_resolve (mainsAgree tree config) plain remembers.honest
      outcome leads
  have contextAbsolute :=
    (FileTree.isAbsolute_canonicalize keyed context).trans absolute
  exact (FileTree.isAbsolute_canonicalize keyed candidate).trans
    (isAbsolute_of_mem_moduleFiles _ contextAbsolute present)

/-! ## Files as specifiers -/

/-- An absolute path is a specifier that is a path. -/
theorem isPath_toString
    {path : Path}
    (absolute : path.isAbsolute = true) :
    Specifier.isPath path.toString = true := by
  have begins : path.toString.startsWith "/" = true := by
    rw [String.startsWith_string_iff]
    rcases path with ⟨chars⟩
    cases chars with
    | nil => simp [Path.isAbsolute] at absolute
    | cons char rest =>
        obtain rfl : char = '/' := by simpa [Path.isAbsolute] using absolute
        simp [Path.toString]
  simp [Specifier.isPath, begins]

/-- The text of a canonical absolute file leads to the file first. -/
theorem firstFile?_moduleFiles_toString
    {tree : FileTree}
    (keyed : tree.Keyed)
    (config : ResolverConfig)
    {path : Path}
    (isFile : tree.toFileSystem.isFile path = true)
    (canonical : tree.canonicalize path = path)
    (absolute : path.isAbsolute = true)
    (context : Path) :
    firstFile? ⟨tree.toFileSystem, config⟩
        (moduleFiles ⟨tree.toFileSystem, config⟩ context path.toString) =
      some path := by
  have target : (context.child path.toString).normalize = path := by
    have normal := FileTree.isNormal_canonicalize keyed path
    rw [canonical] at normal
    rw [Path.child, Path.ofString_toString, Path.join_of_isAbsolute absolute]
    exact normal
  rw [moduleFiles, if_pos (isPath_toString absolute), target, pathFiles,
    fileCandidates, List.cons_append, firstFile?, List.find?_cons_of_pos isFile,
    Option.map_some]
  exact congrArg some canonical

theorem toString_ne_empty
    {path : Path}
    (absolute : path.isAbsolute = true) : path.toString ≠ "" := by
  intro empty
  have noChars : path.chars = [] := by simpa [Path.toString] using empty
  simp [Path.isAbsolute, noChars] at absolute

/-- In a tree that is built by insertions, a resolution names a file, and the
path is the canonical one. Without browser fields and from an absolute
context, it names that file again as a specifier, whatever has been asked in
the meantime and wherever it is read. -/
theorem resolve_canonical_file
    {tree : FileTree}
    (built : tree.Built)
    (config : ResolverConfig)
    {memo next : DescriptorMemo}
    (remembers : Remembers ⟨tree.toFileSystem, config⟩ memo)
    {context path : Path}
    {specifier : String}
    {origin : Option Path}
    {result : ResolveResult}
    (outcome :
      resolve ⟨tree.toFileSystem, config⟩ memo context specifier origin =
        some (result, next))
    (leads : result.resolution = .path path) :
    tree.toFileSystem.isFile path = true ∧
      tree.canonicalize path = path ∧
        (config.browser = false → context.isAbsolute = true →
          ∀ later, Remembers ⟨tree.toFileSystem, config⟩ later →
            ∀ elsewhere origin, ∃ again last,
              resolve ⟨tree.toFileSystem, config⟩ later elsewhere
                    path.toString origin =
                  some (again, last) ∧
                again.resolution = .path path) := by
  have keyed := built.keyed
  obtain ⟨isFile, canonical⟩ :=
    ((tracks_namesCanonicalFile keyed config).resolve trivial outcome).2 path
      leads path rfl
  refine ⟨isFile, canonical,
    fun plain contextAbsolute later laterRemembers elsewhere origin => ?_⟩
  have agree := mainsAgree tree config
  have absolute : path.isAbsolute = true :=
    isAbsolute_of_resolve keyed plain remembers outcome leads contextAbsolute
  obtain ⟨again, last, secondOutcome, resolution⟩ :=
    resolve_firstFile? agree plain laterRemembers.honest elsewhere
      (toString_ne_empty absolute) origin
  refine ⟨again, last, secondOutcome, resolution.trans ?_⟩
  have first :=
    firstFile?_moduleFiles_toString keyed config isFile canonical absolute
      (tree.canonicalize elsewhere)
  exact congrArg
    (fun file => Resolution.ofFinding _ (Option.map Finding.file file)) first

/-- A tree whose case is folded between two insertions. -/
def foldedTree : FileTree :=
  (FileTree.empty.insertFile (.ofString "/P/Lib/A.js")
      "").ignoringCase.insertFile
    (.ofString "/p/LIB/b.js") ""

/-- The canonical path is found again, though it is spelled in another way. -/
theorem resolve_canonical_file_foldedTree :
    ∃ again last,
      resolve ⟨foldedTree.toFileSystem,
            { ResolverConfig.standard with browser := false }⟩
          .empty (.ofString "elsewhere") "/P/Lib/A.js" none =
            some (again, last) ∧
        again.resolution = .path (.ofString "/P/Lib/A.js") := by
  have built : foldedTree.Built :=
    .insertFile _ _ (.ignoringCase (.insertFile _ _ .empty))
  have leads :
      (resolve ⟨foldedTree.toFileSystem,
            { ResolverConfig.standard with browser := false }⟩
          .empty (.ofString "/p/src") "../lib/a" none).map (·.1.resolution) =
        some (.path (.ofString "/P/Lib/A.js")) := by
    decide +kernel
  obtain ⟨⟨result, next⟩, outcome, leads⟩ := Option.map_eq_some_iff.mp leads
  have real := resolve_canonical_file built _ .nothing outcome leads
  simpa using real.2.2 rfl rfl .empty .nothing (.ofString "elsewhere") none

end Resolver
end CommonJs
