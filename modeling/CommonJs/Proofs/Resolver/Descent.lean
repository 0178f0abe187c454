import CommonJs.Proofs.Resolver.Requests

/-!
# What a request comes down to

A search may meet an entry of a browser field, and from then on all that is
left to do is the replacement that the entry names. So a search that is given
some way to carry out replacements uses it at most once, as the last thing it
does. A request therefore either hits one entry and has the result of the
replacement, or it leads to a file or nowhere and no entry has a part in it.
-/

namespace CommonJs

/-- The target is that of an entry of the browser field. -/
def BrowserMap.Names
    (map : BrowserMap)
    (target : BrowserTarget) : EntryKind → Prop
  | .main => map.main = some target
  | .file => ∃ path, map.file? path = some target
  | .module => ∃ specifier, map.module? specifier = some target

namespace Resolver

/-! ## Entries that are met -/

section Entries

variable {resolver : Resolver} {scope own : Option PackageDescriptor}
variable {package : PackageDescriptor} {target : BrowserTarget}

theorem mainReplacement?_eq_some
    (replaced : resolver.mainReplacement? own = some (package, target)) :
    resolver.config.browser = true ∧
      own = some package ∧ package.browser.main = some target := by
  cases own with
  | none => cases replaced
  | some described =>
      unfold mainReplacement? at replaced
      rw [Option.bind_eq_bind, Option.bind_some] at replaced
      split at replaced
      next browser =>
        obtain ⟨_, main, same⟩ := Option.bind_eq_some_iff.mp replaced
        cases same
        exact ⟨browser, rfl, main⟩
      next => cases replaced

theorem fileReplacement?_eq_some
    {candidate : Path}
    (replaced : resolver.fileReplacement? scope candidate =
      some (package, target)) :
    scope = some package ∧
      package.browser.file? (resolver.fileSystem.canonicalize candidate) =
        some target := by
  rw [fileReplacement?_eq] at replaced
  obtain ⟨_, isScope, replaced⟩ := Option.bind_eq_some_iff.mp replaced
  obtain ⟨_, entry, same⟩ := Option.map_eq_some_iff.mp replaced
  cases same
  exact ⟨isScope, entry⟩

theorem moduleReplacement?_eq_some
    {specifier : String}
    (replaced : moduleReplacement? scope specifier = some (package, target)) :
    scope = some package ∧ package.browser.module? specifier = some target := by
  cases scope with
  | none => cases replaced
  | some surrounding =>
      obtain ⟨_, entry, same⟩ := Option.bind_eq_some_iff.mp replaced
      cases same
      exact ⟨rfl, entry⟩

end Entries

/-- What the manifest in a directory says, under a spelling of the directory. -/
def Tells
    (resolver : Resolver)
    (directory : Path)
    (answer : Option PackageDescriptor) : Prop :=
  ∃ spelling : Path,
    spelling.SameWay directory ∧
      PackageDescriptor.read? resolver.fileSystem resolver.config.manifest
        spelling = answer

/-- The main entry and the file entries of a package are among those that may
be met. -/
structure AdmitsEntries
    (resolver : Resolver)
    (admits : PackageDescriptor → BrowserTarget → EntryKind → Prop)
    (scope : Option PackageDescriptor) : Prop where
  /-- The entry for the main file is admitted. -/
  main {package : PackageDescriptor} {target : BrowserTarget} :
    resolver.mainReplacement? scope = some (package, target) →
      admits package target .main
  /-- So is the entry for any candidate. -/
  file {package : PackageDescriptor} {target : BrowserTarget}
    (candidate : Path) :
    resolver.fileReplacement? scope candidate = some (package, target) →
      admits package target .file

/-! ## One replacement at the end -/

/-- From an honest memo, a search does the same whatever way to carry out
replacements it is given: it ends with a file or with nothing, or what is left
of it is one replacement, by an entry that may be met. -/
def ComesDown
    (resolver : Resolver)
    (admits : PackageDescriptor → BrowserTarget → EntryKind → Prop)
    (search : Replace → Search (Option Finding)) : Prop :=
  ∀ before : SearchState,
    before.memo.Honest resolver.fileSystem resolver.config.manifest →
      ∃ after : SearchState,
        after.memo.Honest resolver.fileSystem resolver.config.manifest ∧
          ((∃ file : Option Path,
              ∀ replace, search replace before = some (file.map .file, after)) ∨
            ∃ package target kind,
              admits package target kind ∧
                ∀ replace, search replace before =
                  (some <$> replace package target kind) after)

section ComesDown

variable {resolver : Resolver}
variable {admits : PackageDescriptor → BrowserTarget → EntryKind → Prop}
variable {scope : Option PackageDescriptor}

/-- Outside of packages there is nothing to admit. -/
theorem admitsEntries_none : resolver.AdmitsEntries admits none where
  main replaced := by cases replaced
  file _ replaced := by cases replaced

/-- The entries met inside a directory are its own, or those around it. -/
theorem AdmitsEntries.innerScope
    {own : Option PackageDescriptor}
    (inside : resolver.config.browser = true →
      resolver.AdmitsEntries admits own)
    (around : resolver.AdmitsEntries admits scope) :
    resolver.AdmitsEntries admits (resolver.innerScope own scope) := by
  unfold Resolver.innerScope
  split
  next browser =>
    cases own with
    | none => exact around
    | some _ => exact inside browser
  next => exact admitsEntries_none

/-- A search that finds nothing meets no entry. -/
theorem comesDown_none : resolver.ComesDown admits fun _ => pure none :=
  fun before honest => ⟨before, honest, .inl ⟨none, fun _ => rfl⟩⟩

theorem comesDown_file (file : Path) :
    resolver.ComesDown admits fun _ => pure (some (.file file)) :=
  fun before honest => ⟨before, honest, .inl ⟨some file, fun _ => rfl⟩⟩

/-- A search that begins with a replacement comes down to it. -/
theorem comesDown_replacement
    {package : PackageDescriptor}
    {target : BrowserTarget}
    {kind : EntryKind}
    (admitted : admits package target kind) :
    resolver.ComesDown admits fun replace =>
      some <$> replace package target kind :=
  fun before honest =>
    ⟨before, honest, .inr ⟨package, target, kind, admitted, fun _ => rfl⟩⟩

/-- A place may be tried before. -/
theorem ComesDown.tryPlace
    {search : Replace → Search (Option Finding)}
    (place : Path)
    (comesDown : resolver.ComesDown admits search) :
    resolver.ComesDown admits fun replace =>
      Resolver.tryPlace place >>= fun _ => search replace :=
  fun before honest =>
    comesDown { before with trail := before.trail.add place } honest

/-- A directory may be asked for its descriptor before. -/
theorem ComesDown.describe
    {search : Option PackageDescriptor → Replace → Search (Option Finding)}
    (directory : Path)
    (comesDown : ∀ own, resolver.Tells directory own →
      resolver.ComesDown admits (search own)) :
    resolver.ComesDown admits fun replace =>
      resolver.describe directory >>= fun own => search own replace := by
  intro before honest
  obtain ⟨spelling, same, answer⟩ := honest.describe_answer directory
  exact comesDown _ ⟨spelling, same, answer.symm⟩ ⟨_, before.trail⟩
    (honest.describe directory)

/-- So may the package around a directory. -/
theorem ComesDown.scopeInside
    {search : Option PackageDescriptor → Replace → Search (Option Finding)}
    (directory : Path)
    (entries : resolver.config.browser = true →
      ∀ own, resolver.Tells directory own → resolver.AdmitsEntries admits own)
    (comesDown : ∀ own, resolver.AdmitsEntries admits own →
      resolver.ComesDown admits (search own)) :
    resolver.ComesDown admits fun replace =>
      resolver.scopeInside directory >>= fun own => search own replace := by
  unfold Resolver.scopeInside
  split
  next browser =>
    exact ComesDown.describe directory fun own tells =>
      comesDown own (entries browser own tells)
  next => simpa only [pure_bind] using comesDown none admitsEntries_none

/-- Nothing is searched for after a replacement. -/
theorem firstFinding_replaced
    (search : Search Finding)
    (others : List (Search (Option Finding))) :
    firstFinding ((some <$> search) :: others) = some <$> search := by
  rw [firstFinding, bind_map_left]
  exact bind_pure_comp some search

/-- A search that is tried before others. -/
theorem ComesDown.before
    {search : Replace → Search (Option Finding)}
    {others : Replace → List (Search (Option Finding))}
    (first : resolver.ComesDown admits search)
    (later : resolver.ComesDown admits fun replace =>
      firstFinding (others replace)) :
    resolver.ComesDown admits fun replace =>
      firstFinding (search replace :: others replace) := by
  intro before honest
  obtain ⟨between, honestBetween, ended | replaced⟩ := first before honest
  · obtain ⟨file, ran⟩ := ended
    have continued (replace : Replace) :
        firstFinding (search replace :: others replace) before =
          match file with
          | some file => some (some (.file file), between)
          | none => firstFinding (others replace) between := by
      rw [firstFinding, Search.bind_apply, ran]
      cases file <;> rfl
    simp only [continued]
    cases file with
    | some file =>
        exact ⟨between, honestBetween, .inl ⟨some file, fun _ => rfl⟩⟩
    | none => exact later between honestBetween
  · obtain ⟨package, target, kind, admitted, ran⟩ := replaced
    refine ⟨between, honestBetween,
      .inr ⟨package, target, kind, admitted, fun replace => ?_⟩⟩
    dsimp only
    rw [← firstFinding_replaced (replace package target kind) (others replace),
      firstFinding, firstFinding, Search.bind_apply, Search.bind_apply, ran]

/-- A search that is the last one. -/
theorem ComesDown.last
    {search : Replace → Search (Option Finding)}
    (only : resolver.ComesDown admits search) :
    resolver.ComesDown admits fun replace => firstFinding [search replace] :=
  only.before comesDown_none

/-- Searches of one kind that are tried one after the other. -/
theorem comesDown_firstFinding_map
    {α : Type}
    {search : α → Replace → Search (Option Finding)}
    {items : List α}
    (each : ∀ item ∈ items, resolver.ComesDown admits (search item)) :
    resolver.ComesDown admits fun replace =>
      firstFinding (items.map fun item => search item replace) := by
  induction items with
  | nil => exact comesDown_none
  | cons item others inductionHypothesis =>
      exact (each item List.mem_cons_self).before
        (inductionHypothesis fun other present =>
          each other (List.mem_cons_of_mem _ present))

/-- A candidate meets the entry for it, if there is one. -/
theorem comesDown_searchCandidate
    (inScope : resolver.AdmitsEntries admits scope)
    (candidate : Path) :
    resolver.ComesDown admits fun replace =>
      resolver.searchCandidate replace scope candidate := by
  unfold searchCandidate
  cases replaced : resolver.fileReplacement? scope candidate with
  | some entry => exact comesDown_replacement (inScope.file candidate replaced)
  | none =>
      refine ComesDown.tryPlace candidate ?_
      split
      · exact comesDown_file _
      · exact comesDown_none

theorem comesDown_searchCandidates
    (inScope : resolver.AdmitsEntries admits scope)
    (candidates : List Path) :
    resolver.ComesDown admits fun replace =>
      resolver.searchCandidates replace scope candidates :=
  comesDown_firstFinding_map fun candidate _ =>
    comesDown_searchCandidate inScope candidate

theorem comesDown_searchDirectoryFiles
    (inScope : resolver.AdmitsEntries admits scope)
    (directory : Path)
    (main : Option String) :
    resolver.ComesDown admits fun replace =>
      resolver.searchDirectoryFiles replace scope directory main := by
  have candidates := comesDown_searchCandidates inScope
  cases main with
  | none => exact candidates _
  | some main =>
      exact (candidates _).before ((candidates _).before (candidates _).last)

/-- A directory meets the entries of its own package and those around it. -/
theorem comesDown_searchDirectory
    (inScope : resolver.AdmitsEntries admits scope)
    {directory : Path}
    (inside : resolver.config.browser = true →
      ∀ own, resolver.Tells directory own → resolver.AdmitsEntries admits own) :
    resolver.ComesDown admits fun replace =>
      resolver.searchDirectory replace scope directory := by
  refine ComesDown.describe directory fun own tells => ?_
  cases replaced : resolver.mainReplacement? own with
  | some entry =>
      have browser := (mainReplacement?_eq_some replaced).1
      exact comesDown_replacement ((inside browser own tells).main replaced)
  | none =>
      exact comesDown_searchDirectoryFiles
        (AdmitsEntries.innerScope (fun browser => inside browser own tells)
          inScope) directory _

/-- A path meets no other entries than the directory there. -/
theorem comesDown_searchPath
    (inScope : resolver.AdmitsEntries admits scope)
    {target : Path}
    (inside : resolver.config.browser = true →
      resolver.fileSystem.isDirectory target = true →
        ∀ own, resolver.Tells target own → resolver.AdmitsEntries admits own) :
    resolver.ComesDown admits fun replace =>
      resolver.searchPath replace scope target := by
  refine (comesDown_searchCandidates inScope _).before (ComesDown.last ?_)
  split
  next isDirectory =>
    exact comesDown_searchDirectory inScope fun browser =>
      inside browser isDirectory
  next => exact comesDown_none

/-- A package meets its own entries, or those of a directory inside. -/
theorem comesDown_searchPackage
    {inside : Option String}
    {directory : Path}
    (entries : resolver.config.browser = true →
      resolver.fileSystem.isDirectory directory = true →
        ∀ own, resolver.Tells directory own → resolver.AdmitsEntries admits own)
    (within : resolver.config.browser = true →
      ∀ path ∈ inside,
        resolver.fileSystem.isDirectory
            (directory.child path).normalize = true →
          ∀ own, resolver.Tells (directory.child path).normalize own →
            resolver.AdmitsEntries admits own) :
    resolver.ComesDown admits fun replace =>
      resolver.searchPackage replace inside directory := by
  simp only [searchPackage_eq]
  refine ComesDown.tryPlace directory ?_
  split
  next isDirectory =>
    refine ComesDown.scopeInside directory
      (fun browser => entries browser isDirectory)
      fun own inScope => ?_
    cases inside with
    | some path =>
        exact comesDown_searchPath inScope fun browser =>
          within browser path rfl
    | none =>
        exact comesDown_searchDirectory admitsEntries_none fun browser =>
          entries browser isDirectory
  next => exact comesDown_none

/-- A bare specifier meets the module entries around it and those of packages
with its name. -/
theorem comesDown_searchBare
    {context : Path}
    {specifier : String}
    (modules : ∀ package target,
      moduleReplacement? scope specifier = some (package, target) →
        admits package target .module)
    (entries : resolver.config.browser = true →
      ∀ directory ∈ resolver.packageCandidates context (Specifier.split
          specifier).1,
        resolver.fileSystem.isDirectory directory = true →
          ∀ own, resolver.Tells directory own →
            resolver.AdmitsEntries admits own)
    (within : resolver.config.browser = true →
      ∀ directory ∈ resolver.packageCandidates context (Specifier.split
          specifier).1,
        ∀ path ∈ (Specifier.split specifier).2,
          resolver.fileSystem.isDirectory
              (directory.child path).normalize = true →
            ∀ own, resolver.Tells (directory.child path).normalize own →
              resolver.AdmitsEntries admits own) :
    resolver.ComesDown admits fun replace =>
      resolver.searchBare replace scope context specifier := by
  unfold searchBare
  cases replaced : moduleReplacement? scope specifier with
  | some entry => exact comesDown_replacement (modules _ _ replaced)
  | none =>
      exact comesDown_firstFinding_map fun directory present =>
        comesDown_searchPackage
          (fun browser => entries browser directory present)
          fun browser => within browser directory present

end ComesDown

/-! ## Requests -/

/-- The search for a specifier with some way to carry out replacements. -/
def searchWith
    (resolver : Resolver)
    (replace : Replace)
    (context : Path)
    (scope : Option PackageDescriptor)
    (specifier : String) : Search (Option Finding) :=
  if Specifier.isPath specifier then
    resolver.searchPath replace scope (context.child specifier).normalize
  else resolver.searchBare replace scope context specifier

/-- The whole search of a request. -/
def searchRequest
    (resolver : Resolver)
    (replace : Replace)
    (context : Path)
    (specifier : String)
    (origin : Option Path) : Search (Option Finding) :=
  resolver.searchScope (resolver.fileSystem.canonicalize context) origin >>=
    fun scope =>
      resolver.searchWith replace (resolver.fileSystem.canonicalize context)
        scope specifier

/-- If there is a package, browser fields count and it is what some manifest
describes. -/
def Described (resolver : Resolver) (scope : Option PackageDescriptor) : Prop :=
  ∀ package, scope = some package →
    resolver.config.browser = true ∧ ∃ directory,
      PackageDescriptor.read? resolver.fileSystem resolver.config.manifest
          directory =
        some package

/-- The target is that of an entry of some manifest, where browser fields
count. -/
structure Offers
    (resolver : Resolver)
    (package : PackageDescriptor)
    (target : BrowserTarget)
    (kind : EntryKind) : Prop where
  /-- The package is what its manifest says. -/
  described : resolver.Described (some package)
  /-- One of its entries has the target. -/
  names : package.browser.Names target kind

section Requests

variable {resolver : Resolver} {scope : Option PackageDescriptor}

/-- A package that is what its manifest says has entries of that manifest. -/
theorem Described.admitsEntries
    (described : resolver.Described scope) :
    resolver.AdmitsEntries resolver.Offers scope where
  main replaced := by
    obtain ⟨_, rfl, main⟩ := mainReplacement?_eq_some replaced
    exact ⟨described, main⟩
  file candidate replaced := by
    obtain ⟨rfl, entry⟩ := fileReplacement?_eq_some replaced
    exact ⟨described, _, entry⟩

theorem Tells.described
    {directory : Path}
    {own : Option PackageDescriptor}
    (tells : resolver.Tells directory own)
    (browser : resolver.config.browser = true) : resolver.Described own := by
  obtain ⟨spelling, _, answer⟩ := tells
  exact fun package isOwn => ⟨browser, spelling, answer.trans isOwn⟩

/-- Whatever the specifier, only entries of manifests are met. -/
theorem comesDown_searchWith
    (described : resolver.Described scope)
    (context : Path)
    (specifier : String) :
    resolver.ComesDown resolver.Offers fun replace =>
      resolver.searchWith replace context scope specifier := by
  have inside (browser : resolver.config.browser = true) (directory : Path) :
      ∀ own, resolver.Tells directory own →
        resolver.AdmitsEntries resolver.Offers own :=
    fun _ tells => (tells.described browser).admitsEntries
  unfold searchWith
  split
  · exact comesDown_searchPath described.admitsEntries fun browser _ =>
      inside browser _
  · refine comesDown_searchBare (fun package target replaced => ?_)
      (fun browser directory _ _ => inside browser directory)
      fun browser _ _ _ _ _ => inside browser _
    obtain ⟨rfl, entry⟩ := moduleReplacement?_eq_some replaced
    exact ⟨described, specifier, entry⟩

/-- So it is for a whole request. -/
theorem comesDown_searchRequest
    (context : Path)
    (specifier : String)
    (origin : Option Path) :
    resolver.ComesDown resolver.Offers fun replace =>
      resolver.searchRequest replace context specifier origin := by
  intro before honest
  exact comesDown_searchWith (fun _ answer => scopeOf_eq_some honest answer)
    (resolver.fileSystem.canonicalize context) specifier ⟨_, before.trail⟩
    (resolver.tracks_honest.scopeOf honest
      (resolver.fileSystem.canonicalize context) origin)

end Requests

/-! ## Requests that hit an entry -/

/-- The search of a request comes down to the replacement that an entry names,
from one and the same state however the replacement is carried out. -/
def Hits
    (resolver : Resolver)
    (memo : DescriptorMemo)
    (context : Path)
    (specifier : String)
    (origin : Option Path)
    (package : PackageDescriptor)
    (target : BrowserTarget)
    (kind : EntryKind) : Prop :=
  specifier ≠ "" ∧
    ∃ between, ∀ replace,
      resolver.searchRequest replace context specifier origin
          ⟨memo, .start (some triedLimit)⟩ =
        (some <$> replace package target kind) between

section Hits

variable {resolver : Resolver} {memo : DescriptorMemo}
variable {context : Path} {specifier : String} {origin : Option Path}
variable {package : PackageDescriptor} {target : BrowserTarget}
  {kind : EntryKind}

/-- What is left of a search is one replacement in one state, and no other: to
carry replacements out in different ways tells them apart. -/
theorem replacement_unique
    {other : PackageDescriptor}
    {otherTarget : BrowserTarget}
    {otherKind : EntryKind}
    {between otherBetween : SearchState}
    (same : ∀ replace : Replace,
      (some <$> replace package target kind) between =
        (some <$> replace other otherTarget otherKind) otherBetween) :
    package = other ∧ target = otherTarget ∧ kind = otherKind ∧
      between = otherBetween := by
  classical
  by_contra different
  -- A way to carry out replacements that gives up on the first one only.
  let replace : Replace := fun met metTarget metKind state =>
    if package = met ∧ target = metTarget ∧ kind = metKind ∧ between = state
      then none
    else some (.stub, state)
  have givesUp : (some <$> replace package target kind) between = none := by
    change Option.bind (replace package target kind between) _ = none
    rw [show replace package target kind between =
      none from if_pos ⟨rfl, rfl, rfl, rfl⟩]
    rfl
  have ends : (some <$> replace other otherTarget otherKind) otherBetween =
      some (some .stub, otherBetween) := by
    change Option.bind (replace other otherTarget otherKind otherBetween) _ = _
    rw [show replace other otherTarget otherKind otherBetween =
        some (.stub, otherBetween) from
      if_neg different]
    rfl
  exact absurd (givesUp.symm.trans ((same replace).trans ends)) (by simp)

/-- A resolution is the outcome of the search, with the places tried and the
memo that is left. -/
theorem resolveWithin_eq_searchRequest
    (nonempty : specifier ≠ "")
    (depth : Nat) :
    resolver.resolveWithin depth (some triedLimit) memo context
        specifier origin =
      (resolver.searchRequest (resolver.replaceWithin depth) context specifier
          origin ⟨memo, .start (some triedLimit)⟩).map fun outcome =>
        (⟨Resolution.ofFinding (missReason specifier) outcome.1,
            outcome.2.trail.places⟩,
          outcome.2.memo) :=
  resolveWithin_eq resolver depth _ memo context nonempty origin

variable (context origin) in
/-- A request hits one of the entries that manifests offer, or else it leads to
a file or nowhere, however deep replacements may be nested. -/
theorem hits_or_resolves
    (honest : memo.Honest resolver.fileSystem resolver.config.manifest)
    (nonempty : specifier ≠ "") :
    (∃ package target kind,
      resolver.Hits memo context specifier origin package target kind) ∨
      ∃ (file : Option Path) (next : SearchState), ∀ depth,
        resolver.resolveWithin depth (some triedLimit) memo context
            specifier origin =
          some (⟨Resolution.ofFinding (missReason specifier) (file.map .file),
            next.trail.places⟩, next.memo) := by
  obtain ⟨after, _, ended | replaced⟩ :=
    comesDown_searchRequest context specifier origin
      ⟨memo, .start (some triedLimit)⟩ honest
  · obtain ⟨file, ran⟩ := ended
    refine .inr ⟨file, after, fun depth => ?_⟩
    rw [resolveWithin_eq_searchRequest nonempty]
    exact congrArg (Option.map _) (ran _)
  · obtain ⟨package, target, kind, _, ran⟩ := replaced
    exact .inl ⟨package, target, kind, nonempty, after, ran⟩

/-- A request hits at most one entry. -/
theorem Hits.unique
    {other : PackageDescriptor}
    {otherTarget : BrowserTarget}
    {otherKind : EntryKind}
    (hits : resolver.Hits memo context specifier origin package target kind)
    (otherHits :
      resolver.Hits memo context specifier origin other otherTarget otherKind) :
    package = other ∧ target = otherTarget ∧ kind = otherKind := by
  obtain ⟨_, between, comesDown⟩ := hits
  obtain ⟨_, _, otherComesDown⟩ := otherHits
  obtain ⟨samePackage, sameTarget, sameKind, _⟩ :=
    replacement_unique fun replace =>
      (comesDown replace).symm.trans (otherComesDown replace)
  exact ⟨samePackage, sameTarget, sameKind⟩

/-- An entry that a request hits is one that a manifest offers, and what is left
to do is its replacement, from an honest memo. -/
theorem Hits.offers
    (hits : resolver.Hits memo context specifier origin package target kind)
    (honest : memo.Honest resolver.fileSystem resolver.config.manifest) :
    resolver.Offers package target kind ∧
      ∃ between : SearchState,
        between.memo.Honest resolver.fileSystem resolver.config.manifest ∧
          ∀ replace,
            resolver.searchRequest replace context specifier origin
                ⟨memo, .start (some triedLimit)⟩ =
              (some <$> replace package target kind) between := by
  obtain ⟨after, honestAfter, ended | replaced⟩ :=
    comesDown_searchRequest context specifier origin
      ⟨memo, .start (some triedLimit)⟩ honest
  · obtain ⟨file, ran⟩ := ended
    obtain ⟨_, between, comesDown⟩ := hits
    have same := (ran fun _ _ _ => pure .stub).symm.trans
      (comesDown fun _ _ _ => pure .stub)
    cases file <;> cases same
  · obtain ⟨met, metTarget, metKind, offers, ran⟩ := replaced
    obtain ⟨rfl, rfl, rfl⟩ := hits.unique ⟨hits.1, after, ran⟩
    exact ⟨offers, after, honestAfter, ran⟩

/-- A request that hits an entry has the result of the replacement, which is
searched for with an honest memo. -/
theorem Hits.resolve_eq
    (hits : resolver.Hits memo context specifier origin package target kind)
    (honest : memo.Honest resolver.fileSystem resolver.config.manifest) :
    ∃ between : SearchState,
      between.memo.Honest resolver.fileSystem resolver.config.manifest ∧
        resolver.resolve memo context specifier origin =
          (resolver.replaceWithin resolver.nestingLimit package target kind
              between).map
            fun outcome =>
              (⟨Resolution.ofFinding (missReason specifier) (some outcome.1),
                  outcome.2.trail.places⟩, outcome.2.memo) := by
  obtain ⟨_, between, honestBetween, comesDown⟩ := hits.offers honest
  refine ⟨between, honestBetween, ?_⟩
  rw [resolve, resolveWithin_eq_searchRequest hits.1, comesDown]
  change Option.map _ (Option.bind _ _) = _
  cases resolver.replaceWithin resolver.nestingLimit package target kind
    between <;> rfl

theorem searchPath_replaced
    {scope : Option PackageDescriptor}
    {place : Path}
    (replaced : resolver.fileReplacement? scope place = some (package, target))
    (replace : Replace) :
    resolver.searchPath replace scope place =
      some <$> replace package target .file := by
  have first : resolver.searchCandidate replace scope place =
      some <$> replace package target .file := by
    rw [searchCandidate, replaced]
  rw [searchPath, fileCandidates, searchCandidates, List.map_cons, first,
    firstFinding_replaced, firstFinding_replaced]

/-- A request for a path hits the entry for that path in the package around
it. -/
theorem hits_of_fileReplacement?
    (isPath : Specifier.isPath specifier = true)
    (replaced :
      resolver.fileReplacement?
          (resolver.scopeOf memo (resolver.fileSystem.canonicalize context)
            origin).1
          ((resolver.fileSystem.canonicalize context).child
            specifier).normalize =
        some (package, target)) :
    resolver.Hits memo context specifier origin package target .file := by
  have nonempty : specifier ≠ "" := by
    rintro rfl
    exact absurd isPath (by decide)
  refine ⟨nonempty,
    ⟨(resolver.scopeOf memo (resolver.fileSystem.canonicalize context)
        origin).2,
      .start (some triedLimit)⟩, fun replace => ?_⟩
  rw [searchRequest, Search.bind_apply, searchScope, Option.bind_some]
  dsimp only
  rw [searchWith, if_pos isPath, searchPath_replaced replaced]

/-- A request hits an entry of the package in a directory when the path it
leads to is replaced by that entry. -/
theorem exists_hits_of_map_fileReplacement?
    {directory : Path}
    (isPath : Specifier.isPath specifier = true)
    (replaced :
      (resolver.fileReplacement?
          (resolver.scopeOf memo (resolver.fileSystem.canonicalize context)
            origin).1
          ((resolver.fileSystem.canonicalize context).child
            specifier).normalize).map
          (fun entry => (entry.1.directory, entry.2)) =
        some (directory, target)) :
    ∃ package : PackageDescriptor,
      package.directory = directory ∧
        resolver.Hits memo context specifier origin package target .file := by
  obtain ⟨⟨package, _⟩, entry, same⟩ := Option.map_eq_some_iff.mp replaced
  obtain ⟨rfl, rfl⟩ := Prod.mk.inj same
  exact ⟨package, rfl, hits_of_fileReplacement? isPath entry⟩

end Hits

end Resolver
end CommonJs
