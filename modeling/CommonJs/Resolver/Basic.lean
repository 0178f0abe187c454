import CommonJs.Resolver.Search

/-!
# Resolution

A resolver answers which file a specifier asks for when it is read in some
directory. The answer comes with the reason if there is no such file and with
the places that were tried. Descriptors are remembered from one request to
the next.
-/

namespace CommonJs

/-- Why a specifier leads nowhere. -/
inductive Reason
  | specifierInvalid
  | notFound
  | packageNotFound
  | browserTargetNotFound
  deriving DecidableEq

/-- The code of a reason. -/
def Reason.code : Reason → String
  | specifierInvalid => "SPECIFIER_INVALID"
  | notFound => "NOT_FOUND"
  | packageNotFound => "PACKAGE_NOT_FOUND"
  | browserTargetNotFound => "BROWSER_TARGET_NOT_FOUND"

/-- What a specifier asks for: a canonical file, nothing at all, or something
that does not exist. -/
inductive Resolution
  | path (path : Path)
  | stub
  | unresolved (reason : Reason)
  deriving DecidableEq

/-- The reason of a resolution that leads nowhere. -/
def Resolution.reason? : Resolution → Option Reason
  | unresolved reason => some reason
  | _ => none

/-- A resolution with the places that were tried for it. -/
structure ResolveResult where
  /-- What was found. -/
  resolution : Resolution
  /-- The places that were tried, in order. -/
  tried : List Path
  deriving DecidableEq

/-- The resolution of a finding; `miss` is the reason if there is none. -/
def Resolution.ofFinding (miss : Reason) : Option Finding → Resolution
  | some (.file found) => path found
  | some .stub => stub
  | some .missingReplacement => unresolved .browserTargetNotFound
  | none => unresolved miss

namespace Resolver

/-- The most places that a result lists. -/
def triedLimit : Nat := 20

/-- How deep replacements may be nested. Each one is named by an entry of the
manifest that is found for some directory, and a manifest has fewer entries
than characters. So there are no more entries than this to name them, even if
each directory has been reached under as many spellings as a host follows
links. Only replacements that come back to an entry are nested deeper. -/
def nestingLimit (resolver : Resolver) : Nat :=
  64 * ((resolver.fileSystem.placeBound + 1) *
    (resolver.fileSystem.textBound + 1))

/-- The search for a specifier from a canonical context with the package that
surrounds the place of the request. -/
def search
    (resolver : Resolver)
    (depth : Nat)
    (context : Path)
    (scope : Option PackageDescriptor)
    (specifier : String) : Search (Option Finding) :=
  let replace := resolver.replaceWithin depth
  if Specifier.isPath specifier then
    resolver.searchPath replace scope (context.child specifier).normalize
  else resolver.searchBare replace scope context specifier

/-- The reason that is given when the search for a specifier finds nothing. -/
def missReason (specifier : String) : Reason :=
  if Specifier.isPath specifier then .notFound else .packageNotFound

/-- The package whose browser field applies to a request that comes from
`origin`, or from `context` if that is not said. -/
def scopeOf
    (resolver : Resolver)
    (memo : DescriptorMemo)
    (context : Path)
    (origin : Option Path) : Option PackageDescriptor × DescriptorMemo :=
  let owner :=
    match origin with
    | some origin => resolver.fileSystem.canonicalize origin
    | none => context
  if resolver.config.browser then
    memo.nearest resolver.fileSystem resolver.config.manifest owner
  else (none, memo)

/-- Resolve a specifier, listing at most `limit` places and nesting
replacements at most `depth` deep. There is no result if that is not deep
enough. -/
def resolveWithin
    (resolver : Resolver)
    (depth : Nat)
    (limit : Option Nat)
    (memo : DescriptorMemo)
    (context : Path)
    (specifier : String)
    (origin : Option Path) : Option (ResolveResult × DescriptorMemo) :=
  if specifier = "" then some (⟨.unresolved .specifierInvalid, []⟩, memo)
  else
    let context := resolver.fileSystem.canonicalize context
    let (scope, memo) := resolver.scopeOf memo context origin
    match resolver.search depth context scope specifier
      ⟨memo, .start limit⟩ with
    | none => none
    | some (finding, state) =>
        let resolution := Resolution.ofFinding (missReason specifier) finding
        some (⟨resolution, state.trail.places⟩, state.memo)

/-- Resolve a specifier that is read in the directory `context`. -/
def resolve
    (resolver : Resolver)
    (memo : DescriptorMemo)
    (context : Path)
    (specifier : String)
    (origin : Option Path) : Option (ResolveResult × DescriptorMemo) :=
  resolver.resolveWithin resolver.nestingLimit (some triedLimit) memo context
    specifier origin

/-- The descriptor of the manifest right inside a directory. -/
def descriptorIn
    (resolver : Resolver)
    (memo : DescriptorMemo)
    (directory : Path) : Option PackageDescriptor × DescriptorMemo :=
  memo.describe resolver.fileSystem resolver.config.manifest directory

/-- The descriptor of the package around a path. -/
def nearestPackage
    (resolver : Resolver)
    (memo : DescriptorMemo)
    (path : Path) : Option PackageDescriptor × DescriptorMemo :=
  memo.nearest resolver.fileSystem resolver.config.manifest
    (resolver.fileSystem.canonicalize path)

end Resolver
end CommonJs
