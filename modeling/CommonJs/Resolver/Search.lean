import CommonJs.Package.Memo
import CommonJs.Path.Normal
import CommonJs.Resolver.Config
import CommonJs.Resolver.Specifier

/-!
# The search for a module

A search tries files one after another and ends with the first one that
exists or that a browser field replaces. A replacement starts a search of
its own, which may meet another replacement; the searches here are given the
way to carry one out, and the last definitions tie the knot for replacements
that are nested at most so many deep.
-/

namespace CommonJs

/-- What a search found: a canonical file, a request for nothing, or a
replacement that leads nowhere. -/
inductive Finding
  | file (path : Path)
  | stub
  | missingReplacement
  deriving DecidableEq

/-- The places that were tried, in order. Only the first `limit` of them are
kept, or all if there is no limit. -/
structure Trail where
  /-- The number of places to keep, if not all are kept. -/
  limit : Option Nat
  /-- The places kept so far. -/
  places : List Path
  deriving DecidableEq

namespace Trail

def start (limit : Option Nat) : Trail := ⟨limit, []⟩

/-- One more place, unless the limit is reached. -/
def add (trail : Trail) (place : Path) : Trail :=
  match trail.limit with
  | some limit =>
      if trail.places.length < limit then
        { trail with places := trail.places ++ [place] }
      else trail
  | none => { trail with places := trail.places ++ [place] }

end Trail

/-- What a search carries along. -/
structure SearchState where
  /-- What is known about the manifests of directories. -/
  memo : DescriptorMemo
  /-- The places that were tried so far. -/
  trail : Trail

/-- A search that gives up without an answer when replacements are nested too
deep. -/
abbrev Search := StateT SearchState Option

/-- Which kind of entry names a replacement. -/
inductive EntryKind
  | main
  | file
  | module
  deriving DecidableEq

/-- A way to carry out the replacement that an entry of a package names. -/
abbrev Replace := PackageDescriptor → BrowserTarget → EntryKind → Search Finding

/-- A file system with the settings of resolution. -/
structure Resolver where
  /-- Where files are looked for. -/
  fileSystem : FileSystem
  /-- How files are looked for. -/
  config : ResolverConfig

namespace Resolver

/-- Note a place as tried. -/
def tryPlace (place : Path) : Search Unit :=
  modify fun state => { state with trail := state.trail.add place }

/-- The descriptor of a directory. -/
def describe (resolver : Resolver) (directory : Path) :
    Search (Option PackageDescriptor) :=
  fun state =>
    let (descriptor, memo) :=
      state.memo.describe resolver.fileSystem resolver.config.manifest directory
    some (descriptor, { state with memo })

/-- The finding of the first search that has one; the others are not
started. -/
def firstFinding : List (Search (Option Finding)) → Search (Option Finding)
  | [] => pure none
  | search :: others => do
      match ← search with
      | some finding => pure (some finding)
      | none => firstFinding others

/-- A path, then the path with each extension in turn. -/
def fileCandidates (resolver : Resolver) (base : Path) : List Path :=
  base :: resolver.config.extensions.map base.append

/-- The index files of a directory in turn. -/
def indexCandidates (resolver : Resolver) (directory : Path) : List Path :=
  resolver.config.extensions.map fun extension =>
    directory.child ("index" ++ extension)

/-- Whether a path ends in the name of a directory that holds packages. -/
def isPackageRoot (resolver : Resolver) (path : Path) : Bool :=
  match path.fileName with
  | some name => resolver.config.packageRoots.contains (String.ofList name)
  | none => false

/-- The directories in which a package may lie: below each package root next
to the context or above it, nearest first, but not below a package root right
inside another. -/
def packageCandidates
    (resolver : Resolver)
    (context : Path)
    (name : String) : List Path :=
  (context.ancestors.filter fun ancestor =>
      !resolver.isPackageRoot ancestor).flatMap
    fun ancestor =>
      resolver.config.packageRoots.map fun root =>
        (ancestor.child root).child name

/-- The replacement for a candidate among the file entries of a package. -/
def fileReplacement?
    (resolver : Resolver)
    (scope : Option PackageDescriptor)
    (candidate : Path) : Option (PackageDescriptor × BrowserTarget) := do
  let package ← scope
  if package.browser.hasFiles then
    let target ← package.browser.file?
      (resolver.fileSystem.canonicalize candidate)
    some (package, target)
  else none

/-- A candidate is replaced, or tried and found to be a file or not. -/
def searchCandidate
    (resolver : Resolver)
    (replace : Replace)
    (scope : Option PackageDescriptor)
    (candidate : Path) : Search (Option Finding) :=
  match resolver.fileReplacement? scope candidate with
  | some (package, target) => some <$> replace package target .file
  | none => do
      tryPlace candidate
      if resolver.fileSystem.isFile candidate then
        pure (some (.file (resolver.fileSystem.canonicalize candidate)))
      else pure none

/-- The first of several candidates that is replaced or a file. -/
def searchCandidates
    (resolver : Resolver)
    (replace : Replace)
    (scope : Option PackageDescriptor)
    (candidates : List Path) : Search (Option Finding) :=
  firstFinding (candidates.map (resolver.searchCandidate replace scope))

/-- The package whose file entries count inside a directory: its own, or else
the one the search comes from. -/
def innerScope
    (resolver : Resolver)
    (own scope : Option PackageDescriptor) : Option PackageDescriptor :=
  if resolver.config.browser then own.or scope else none

/-- The entry of a manifest that replaces its main file. -/
def mainReplacement?
    (resolver : Resolver)
    (own : Option PackageDescriptor) :
    Option (PackageDescriptor × BrowserTarget) := do
  let package ← own
  if resolver.config.browser then
    let target ← package.browser.main
    some (package, target)
  else none

/-- The files that a directory stands for: its main file or the index of its
main directory, then its own index. -/
def searchDirectoryFiles
    (resolver : Resolver)
    (replace : Replace)
    (scope : Option PackageDescriptor)
    (directory : Path) :
    Option String → Search (Option Finding)
  | some main =>
      let mainPath := (directory.child main).normalize
      firstFinding
        [resolver.searchCandidates replace scope
            (resolver.fileCandidates mainPath),
          resolver.searchCandidates replace scope
            (if mainPath.SameWay directory then []
              else resolver.indexCandidates mainPath),
          resolver.searchCandidates replace scope
            (resolver.indexCandidates directory)]
  | none =>
      resolver.searchCandidates replace scope
        (resolver.indexCandidates directory)

/-- The module that a directory stands for. -/
def searchDirectory
    (resolver : Resolver)
    (replace : Replace)
    (scope : Option PackageDescriptor)
    (directory : Path) : Search (Option Finding) := do
  let own ← resolver.describe directory
  match resolver.mainReplacement? own with
  | some (package, target) => some <$> replace package target .main
  | none =>
      resolver.searchDirectoryFiles replace (resolver.innerScope own scope)
        directory (own.bind (·.main))

/-- The module at a path: a file, or what a directory stands for. -/
def searchPath
    (resolver : Resolver)
    (replace : Replace)
    (scope : Option PackageDescriptor)
    (target : Path) : Search (Option Finding) :=
  firstFinding
    [resolver.searchCandidates replace scope (resolver.fileCandidates target),
      if resolver.fileSystem.isDirectory target then
        resolver.searchDirectory replace scope target
      else pure none]

/-- The module at a path inside a package, or the package itself. -/
def searchPackage
    (resolver : Resolver)
    (replace : Replace)
    (inside : Option String)
    (directory : Path) : Search (Option Finding) := do
  tryPlace directory
  if resolver.fileSystem.isDirectory directory then
    let own ← if resolver.config.browser then resolver.describe directory else
      pure none
    match inside with
    | some path =>
        resolver.searchPath replace own (directory.child path).normalize
    | none => resolver.searchDirectory replace none directory
  else pure none

/-- The replacement for a specifier among the module entries of a package. -/
def moduleReplacement?
    (scope : Option PackageDescriptor)
    (specifier : String) : Option (PackageDescriptor × BrowserTarget) := do
  let package ← scope
  let target ← package.browser.module? specifier
  some (package, target)

/-- The module that a specifier without a path asks for. The module entries
of the package it is asked from come first. -/
def searchBare
    (resolver : Resolver)
    (replace : Replace)
    (scope : Option PackageDescriptor)
    (context : Path)
    (specifier : String) : Search (Option Finding) :=
  match moduleReplacement? scope specifier with
  | some (package, target) => some <$> replace package target .module
  | none =>
      let (name, inside) := Specifier.split specifier
      firstFinding
        ((resolver.packageCandidates context name).map
          (resolver.searchPackage replace inside))

/-- The module that a replacement leads to. The target of a main or file
entry is a path in the package before it is a module; that of a module entry
is what specifiers are. No entry of the package it comes from applies to
it. -/
def searchReplacement
    (resolver : Resolver)
    (replace : Replace)
    (package : PackageDescriptor)
    (specifier : String)
    (kind : EntryKind) : Search (Option Finding) :=
  let asPath :=
    resolver.searchPath replace none
      (package.directory.child specifier).normalize
  let asModule := resolver.searchBare replace none package.directory specifier
  if Specifier.isPath specifier then asPath
  else if kind = .module then asModule
  else firstFinding [asPath, asModule]

/-- Carry out a replacement, with at most `depth` replacements nested in one
another. -/
def replaceWithin (resolver : Resolver) : Nat → Replace
  | _, _, .stub, _ => pure .stub
  | 0, _, .path _, _ => failure
  | depth + 1, package, .path specifier, kind => do
      let finding ←
        resolver.searchReplacement (resolver.replaceWithin depth) package
          specifier kind
      pure (finding.getD .missingReplacement)

end Resolver
end CommonJs
