import CommonJs.Proofs.Resolver.Memo

/-!
# Requests as searches

A request is a search for the package around its place and then for the
specifier, from a state that knows what was asked before. What the resolver
asks in two ways, depending on whether there is anything to ask for, is one
question here: for the package of a path inside a package directory, for the
file entries of a package, and for what is left of some searches after the
first of them.
-/

namespace CommonJs

/-- The empty specifier is no path. -/
theorem Specifier.ne_empty_of_isPath
    {specifier : String}
    (isPath : Specifier.isPath specifier = true) : specifier ≠ "" := by
  rintro rfl
  exact absurd isPath (by decide)

namespace Resolver

/-- The package whose file entries count for a path inside a package
directory. -/
def scopeInside
    (resolver : Resolver)
    (directory : Path) : Search (Option PackageDescriptor) :=
  if resolver.config.browser then resolver.describe directory else pure none

/-- The package around the place of a request. -/
def searchScope
    (resolver : Resolver)
    (context : Path)
    (origin : Option Path) : Search (Option PackageDescriptor) :=
  fun state =>
    let (scope, memo) := resolver.scopeOf state.memo context origin
    some (scope, { state with memo })

/-- The place whose package applies to a request. -/
def owner (resolver : Resolver) (context : Path) : Option Path → Path
  | some origin => resolver.fileSystem.canonicalize origin
  | none => context

/-- The package around a request is that of its owner, where browser fields
count. -/
theorem scopeOf_eq
    (resolver : Resolver)
    (memo : DescriptorMemo)
    (context : Path)
    (origin : Option Path) :
    resolver.scopeOf memo context origin =
      if resolver.config.browser then
        memo.nearest resolver.fileSystem resolver.config.manifest
          (resolver.owner context origin)
      else (none, memo) := by
  cases origin <;> rfl

theorem nearestPackage_eq_firstOf
    (resolver : Resolver)
    (memo : DescriptorMemo)
    (context : Path)
    (origin : Option Path) :
    resolver.nearestPackage memo (origin.getD context) =
      DescriptorMemo.firstOf resolver.fileSystem resolver.config.manifest
        (resolver.owner (resolver.fileSystem.canonicalize context)
          origin).ancestors memo := by
  cases origin <;> rfl

/-- A request that is not empty is a search for the package around it and then
for the specifier. -/
theorem resolveWithin_eq
    (resolver : Resolver)
    (depth : Nat)
    (limit : Option Nat)
    (memo : DescriptorMemo)
    (context : Path)
    {specifier : String}
    (nonempty : specifier ≠ "")
    (origin : Option Path) :
    resolver.resolveWithin depth limit memo context specifier origin =
      ((resolver.searchScope (resolver.fileSystem.canonicalize context)
          origin >>= fun scope =>
            resolver.search depth (resolver.fileSystem.canonicalize context)
              scope specifier)
          ⟨memo, .start limit⟩).map fun outcome =>
        (⟨Resolution.ofFinding (missReason specifier) outcome.1,
            outcome.2.trail.places⟩,
          outcome.2.memo) := by
  rw [resolveWithin, if_neg nonempty, Search.bind_apply, searchScope,
    Option.bind_some]
  dsimp only
  split
  next none => rw [none, Option.map_none]
  next ran => rw [ran, Option.map_some]

theorem searchPackage_eq
    (resolver : Resolver)
    (replace : Replace)
    (inside : Option String)
    (directory : Path) :
    resolver.searchPackage replace inside directory =
      (do
        tryPlace directory
        if resolver.fileSystem.isDirectory directory then
          let own ← resolver.scopeInside directory
          match inside with
          | some path =>
              resolver.searchPath replace own (directory.child path).normalize
          | none => resolver.searchDirectory replace none directory
        else pure none) := by
  unfold searchPackage scopeInside
  cases resolver.config.browser with
  | false => rfl
  | true => rfl

/-- To ask first whether a package has file entries at all changes nothing. -/
theorem fileReplacement?_eq
    (resolver : Resolver)
    (scope : Option PackageDescriptor)
    (candidate : Path) :
    resolver.fileReplacement? scope candidate =
      scope.bind fun package =>
        (package.browser.file? (resolver.fileSystem.canonicalize candidate)).map
          (package, ·) := by
  cases scope with
  | none => rfl
  | some package =>
      unfold fileReplacement?
      by_cases hasFiles : package.browser.hasFiles = true
      · simp only [hasFiles, if_true, Option.bind_eq_bind, Option.bind_some]
        exact Option.map_eq_bind.symm
      · have empty : package.browser.files.isEmpty = true := by
          simpa [BrowserMap.hasFiles] using hasFiles
        have noEntry :
            package.browser.file? (resolver.fileSystem.canonicalize candidate) =
              none := by
          rw [BrowserMap.file?, Std.TreeMap.getElem?_of_isEmpty empty]
          rfl
        simp [hasFiles, noEntry]

/-! ## One search after another -/

theorem firstFinding_singleton (search : Search (Option Finding)) :
    firstFinding [search] = search := by
  funext state
  rw [firstFinding, Search.bind_apply]
  cases search state with
  | none => rfl
  | some outcome =>
      obtain ⟨finding, after⟩ := outcome
      cases finding <;> rfl

/-- The searches after the first one are a search of their own. -/
theorem firstFinding_cons
    (search : Search (Option Finding))
    (others : List (Search (Option Finding))) :
    firstFinding (search :: others) =
      firstFinding [search, firstFinding others] := by
  rw [firstFinding, firstFinding, firstFinding_singleton]

/-- No candidates do not change what is found after them. -/
theorem firstFinding_candidates_nil
    (resolver : Resolver)
    (replace : Replace)
    (scope : Option PackageDescriptor)
    (search : Search (Option Finding)) :
    firstFinding [resolver.searchCandidates replace scope [], search] =
      search :=
  firstFinding_singleton search

end Resolver
end CommonJs
