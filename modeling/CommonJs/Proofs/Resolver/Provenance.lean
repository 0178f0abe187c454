import CommonJs.Proofs.Resolver.Chains

/-!
# Where a result comes from

A request has an answer of a certain kind only for a reason that can be pointed
at. It leads to nothing at all because a call meets an entry that says so, and
to a replacement that is missing because a call hands over to one for which
nothing is found. The entries are those of manifests: what a call knows of
packages it has from the memo, and what it knows about the place of the request
it has from the first call.
-/

namespace CommonJs
namespace Resolver

/-! ## The calls of a request -/

/-- The first call of a request from a canonical context. -/
def firstCall
    (resolver : Resolver)
    (memo : DescriptorMemo)
    (context : Path)
    (specifier : String)
    (origin : Option Path) : Call :=
  let context := resolver.fileSystem.canonicalize context
  let scope := (resolver.scopeOf memo context origin).1
  if Specifier.isPath specifier then
    .path scope (context.child specifier).normalize
  else .bare scope context specifier

/-- A request makes a call, in the state that is given with it. The empty
specifier makes none. -/
def Makes
    (resolver : Resolver)
    (memo : DescriptorMemo)
    (context : Path)
    (specifier : String)
    (origin : Option Path)
    (reached : Call × SearchState) : Prop :=
  specifier ≠ "" ∧
    Relation.ReflTransGen resolver.Calls
      (resolver.firstCall memo context specifier origin,
        ⟨(resolver.scopeOf memo (resolver.fileSystem.canonicalize context)
            origin).2,
          .start (some triedLimit)⟩)
      reached

/-- A request considers a candidate, for which the file entries of the package
count. -/
def Considers
    (resolver : Resolver)
    (memo : DescriptorMemo)
    (context : Path)
    (specifier : String)
    (origin : Option Path)
    (package : PackageDescriptor)
    (candidate : Path) : Prop :=
  ∃ state, resolver.Makes memo context specifier origin
    (.candidate (some package) candidate, state)

/-- A request applies an entry of a package: some call comes to it, and the
search goes on with the target in the state that is given. -/
def Applies
    (resolver : Resolver)
    (memo : DescriptorMemo)
    (context : Path)
    (specifier : String)
    (origin : Option Path)
    (package : PackageDescriptor)
    (target : BrowserTarget)
    (kind : EntryKind)
    (state : SearchState) : Prop :=
  ∃ call before,
    resolver.Makes memo context specifier origin (call, before) ∧
      resolver.opening call before = (.replaced package target kind, state)

section Requests

variable {resolver : Resolver} {memo next : DescriptorMemo}
variable {context : Path} {specifier : String} {origin : Option Path}
variable {result : ResolveResult}

/-- A request is performed by its first call. -/
theorem perform_firstCall (replace : Replace) :
    resolver.perform replace
        (resolver.firstCall memo context specifier origin) =
      resolver.searchWith replace (resolver.fileSystem.canonicalize context)
        (resolver.scopeOf memo (resolver.fileSystem.canonicalize context)
          origin).1 specifier := by
  unfold firstCall searchWith
  dsimp only
  split
  · rfl
  · rfl

/-- A request that returns has the findings of the calls that it makes. -/
theorem finding_iff_exists_makes_ends
    (nonempty : specifier ≠ "")
    (outcome : resolver.resolve memo context specifier origin =
      some (result, next)) :
    ∃ found : Option Finding,
      result.resolution = Resolution.ofFinding (missReason specifier) found ∧
        ∀ finding, found = some finding ↔
          ∃ last, resolver.Makes memo context specifier origin last ∧
            resolver.Ends last finding := by
  rw [resolve, resolveWithin_eq_searchRequest nonempty] at outcome
  obtain ⟨⟨found, after⟩, returns, rest⟩ := Option.map_eq_some_iff.mp outcome
  have returned :
      resolver.perform (resolver.replaceWithin resolver.nestingLimit)
          (resolver.firstCall memo context specifier origin)
          ⟨(resolver.scopeOf memo (resolver.fileSystem.canonicalize context)
              origin).2,
            .start (some triedLimit)⟩ = some (found, after) := by
    rw [perform_firstCall]
    exact returns
  refine ⟨found, ?_, fun finding => ?_⟩
  · cases rest
    rfl
  · rw [finding_iff_exists_calls_ends returned finding]
    simp only [Makes, nonempty, ne_eq, not_false_eq_true, true_and]

/-- Every call of a request is grounded. -/
theorem Makes.grounded
    {reached : Call × SearchState}
    (makes : resolver.Makes memo context specifier origin reached)
    (honest : memo.Honest resolver.fileSystem resolver.config.manifest) :
    resolver.Grounded (resolver.firstCall memo context specifier origin)
      reached := by
  refine Grounded.chain ⟨?_, ?_, fun _ _ _ _ => rfl⟩ makes.2
  · exact resolver.tracks_honest.scopeOf honest _ origin
  · have described :
        resolver.Described
          (resolver.scopeOf memo (resolver.fileSystem.canonicalize context)
            origin).1 :=
      fun _ answer => scopeOf_eq_some honest answer
    unfold firstCall
    dsimp only
    split
    · exact described
    · exact described

/-! ## Entries that a request applies -/

variable {package : PackageDescriptor} {target : BrowserTarget}
  {kind : EntryKind}
variable {state : SearchState}

/-- An entry that a request applies is one that a manifest offers. -/
theorem Applies.offers
    (applies :
      resolver.Applies memo context specifier origin package target kind state)
    (honest : memo.Honest resolver.fileSystem resolver.config.manifest) :
    resolver.Offers package target kind := by
  obtain ⟨call, before, makes, opens⟩ := applies
  have grounded := makes.grounded honest
  exact (meets_of_opening opens).offers grounded.honest grounded.described

/-- A candidate that is considered has its file entry applied. -/
theorem Considers.applies
    {candidate : Path}
    (considers :
      resolver.Considers memo context specifier origin package candidate)
    (entry :
      package.browser.file? (resolver.fileSystem.canonicalize candidate) =
        some target) :
    ∃ state, resolver.Applies memo context specifier origin package target
      .file state := by
  obtain ⟨state, makes⟩ := considers
  refine ⟨state, _, state, makes, ?_⟩
  have replaced :
      resolver.fileReplacement? (some package) candidate =
        some (package, target) := by
    rw [fileReplacement?_eq, Option.bind_some, entry]
    rfl
  rw [opening, candidateOpening, replaced]

/-- A module entry of the package around a request is applied. -/
theorem applies_module
    (nonempty : specifier ≠ "")
    (isBare : Specifier.isPath specifier = false)
    (around :
      (resolver.scopeOf memo (resolver.fileSystem.canonicalize context)
        origin).1 = some package)
    (entry : package.browser.module? specifier = some target) :
    ∃ state, resolver.Applies memo context specifier origin package target
      .module state := by
  refine
    ⟨⟨(resolver.scopeOf memo (resolver.fileSystem.canonicalize context)
        origin).2,
      .start (some triedLimit)⟩, _, _, ⟨nonempty, .refl⟩, ?_⟩
  have replaced : moduleReplacement? (some package) specifier =
      some (package, target) := by
    unfold moduleReplacement?
    rw [Option.bind_eq_bind, Option.bind_some, entry]
    rfl
  have first :
      resolver.firstCall memo context specifier origin =
        .bare (some package) (resolver.fileSystem.canonicalize context)
          specifier := by
    rw [firstCall, around, isBare]
    rfl
  rw [first, opening, replaced]

/-- A request for nothing comes from the file entry for a candidate that is
considered, or from the module entry for the specifier in the package around
the place of the request. -/
theorem Applies.stub_cases
    (applies :
      resolver.Applies memo context specifier origin package .stub kind state)
    (honest : memo.Honest resolver.fileSystem resolver.config.manifest) :
    (∃ candidate,
      resolver.Considers memo context specifier origin package candidate ∧
        package.browser.file? (resolver.fileSystem.canonicalize candidate) =
          some .stub) ∨
      (Specifier.isPath specifier = false ∧
        (resolver.scopeOf memo (resolver.fileSystem.canonicalize context)
              origin).1 =
            some package ∧
          package.browser.module? specifier = some .stub) := by
  obtain ⟨call, before, makes, opens⟩ := applies
  have grounded := makes.grounded honest
  have meets := meets_of_opening opens
  have offers := meets.offers grounded.honest grounded.described
  cases meets with
  | @file scope candidate _ _ replaced =>
      obtain ⟨rfl, entry⟩ := fileReplacement?_eq_some replaced
      exact .inl ⟨candidate, ⟨before, makes⟩, entry⟩
  | main scope replaced =>
      obtain ⟨_, directory, described⟩ := offers.described package rfl
      obtain ⟨field, browser⟩ :=
        PackageDescriptor.exists_field_of_read? described
      have entry : package.browser.main = some .stub := offers.names
      rw [browser] at entry
      exact (BrowserMap.main_ofJson_ne_stub _ _ _ entry).elim
  | module around replaced =>
      obtain ⟨rfl, entry⟩ := moduleReplacement?_eq_some replaced
      have isFirst := grounded.module _ _ _ rfl
      unfold firstCall at isFirst
      dsimp only at isFirst
      split at isFirst
      next => cases isFirst
      next isBare =>
        obtain ⟨scope, _, same⟩ := Call.bare.inj isFirst
        rw [same] at entry
        exact .inr ⟨by simpa using isBare, scope.symm, entry⟩

/-- The empty specifier is refused, and nothing else is. -/
theorem resolution_eq_specifierInvalid_iff
    (outcome : resolver.resolve memo context specifier origin =
      some (result, next)) :
    result.resolution = .unresolved .specifierInvalid ↔ specifier = "" := by
  by_cases empty : specifier = ""
  · rw [resolve, resolveWithin, if_pos empty] at outcome
    cases outcome
    simp [empty]
  · obtain ⟨found, resolution, _⟩ := finding_iff_exists_makes_ends empty outcome
    rw [resolution, iff_false_right empty]
    cases found with
    | none =>
        rw [Resolution.ofFinding, missReason]
        split
        · simp
        · simp
    | some finding => cases finding <;> simp [Resolution.ofFinding]

/-- A request is for nothing if an entry that it applies says so. -/
theorem resolution_eq_stub_iff
    (outcome : resolver.resolve memo context specifier origin =
      some (result, next)) :
    result.resolution = .stub ↔
      ∃ package kind state,
        resolver.Applies memo context specifier origin package .stub
          kind state := by
  by_cases empty : specifier = ""
  · have refused := (resolution_eq_specifierInvalid_iff outcome).mpr empty
    simp [refused, Applies, Makes, empty]
  · obtain ⟨found, resolution, finding_iff⟩ :=
      finding_iff_exists_makes_ends empty outcome
    have stub_iff : result.resolution = .stub ↔ found = some .stub := by
      rw [resolution]
      rcases found with _ | _ | _ | _
      all_goals simp [Resolution.ofFinding]
    rw [stub_iff, finding_iff]
    constructor
    · rintro ⟨⟨call, before⟩, makes, ends⟩
      cases ends with
      | stub opens => exact ⟨_, _, _, call, before, makes, opens⟩
    · rintro ⟨package, kind, state, call, before, makes, opens⟩
      exact ⟨(call, before), makes, .stub opens⟩

/-- A replacement is missing if nothing is found for the target of an entry
that the request applies. -/
theorem resolution_eq_browserTargetNotFound_iff
    (outcome : resolver.resolve memo context specifier origin =
      some (result, next)) :
    result.resolution = .unresolved .browserTargetNotFound ↔
      ∃ package target kind state after,
        resolver.Applies memo context specifier origin package (.path target)
            kind state ∧
          ∀ replace,
            resolver.searchReplacement replace package target kind state =
              some (none, after) := by
  by_cases empty : specifier = ""
  · have refused := (resolution_eq_specifierInvalid_iff outcome).mpr empty
    simp [refused, Applies, Makes, empty]
  · obtain ⟨found, resolution, finding_iff⟩ :=
      finding_iff_exists_makes_ends empty outcome
    have missing_iff :
        result.resolution = .unresolved .browserTargetNotFound ↔
          found = some .missingReplacement := by
      rw [resolution]
      rcases found with _ | _ | _ | _
      · rw [Resolution.ofFinding, missReason]
        split <;> simp
      all_goals simp [Resolution.ofFinding]
    rw [missing_iff, finding_iff]
    constructor
    · rintro ⟨⟨call, before⟩, makes, ends⟩
      cases ends with
      | missing opens nothing =>
          exact ⟨_, _, _, _, _, ⟨call, before, makes, opens⟩, nothing⟩
    · rintro ⟨package, target, kind, state, after,
        ⟨call, before, makes, opens⟩, nothing⟩
      exact ⟨(call, before), makes, .missing opens nothing⟩

/-- The reasons for which nothing is found are those for the two kinds of
specifiers. -/
theorem eq_missReason_of_unresolved
    {reason : Reason}
    (outcome : resolver.resolve memo context specifier origin =
      some (result, next))
    (unresolved : result.resolution = .unresolved reason)
    (asked : reason ≠ .specifierInvalid)
    (applied : reason ≠ .browserTargetNotFound) :
    specifier ≠ "" ∧ reason = missReason specifier := by
  have nonempty : specifier ≠ "" := by
    intro empty
    rw [(resolution_eq_specifierInvalid_iff outcome).mpr empty] at unresolved
    exact asked (Resolution.unresolved.inj unresolved).symm
  refine ⟨nonempty, ?_⟩
  obtain ⟨found, resolution, _⟩ :=
    finding_iff_exists_makes_ends nonempty outcome
  rw [resolution] at unresolved
  rcases found with _ | _ | _ | _
  · exact (Resolution.unresolved.inj unresolved).symm
  · cases unresolved
  · cases unresolved
  · exact absurd (Resolution.unresolved.inj unresolved).symm applied

end Requests

/-! ## Requests in a tree -/

section Trees

variable {tree : FileTree} {config : ResolverConfig}

/-- The package around the place of a request has the module entries that it
has for a resolver without history. -/
theorem map_modules_scopeOf
    (browser : config.browser = true)
    {memo : DescriptorMemo}
    (honest : memo.Honest tree.toFileSystem config.manifest)
    (context : Path)
    (origin : Option Path) :
    (scopeOf ⟨tree.toFileSystem, config⟩ memo (tree.canonicalize context)
          origin).1.map
        (·.browser.modules) =
      (nearestPackage ⟨tree.toFileSystem, config⟩ .empty
          (origin.getD context)).1.map
        (·.browser.modules) := by
  have alike :
      Option.Rel PackageDescriptor.Alike
        (scopeOf ⟨tree.toFileSystem, config⟩ memo (tree.canonicalize context)
          origin).1
        (nearestPackage ⟨tree.toFileSystem, config⟩ .empty
          (origin.getD context)).1 := by
    rw [nearestPackage_eq_firstOf, scopeOf_eq, if_pos browser]
    exact alike_firstOf tree.uniform honest DescriptorMemo.honest_empty
      (Path.SameWay.ancestors rfl)
  generalize (scopeOf ⟨tree.toFileSystem, config⟩ memo _ origin).1 =
    scope at alike ⊢
  generalize (nearestPackage ⟨tree.toFileSystem, config⟩ .empty _).1 =
    fresh at alike ⊢
  cases alike with
  | none => rfl
  | some both => exact congrArg some both.browser.modules

variable {memo next : DescriptorMemo} {context : Path} {specifier : String}
variable {origin : Option Path} {result : ResolveResult}

/-- The module entry that counts for a request is that of the package around
its place. -/
theorem scopeOf_module?_iff
    (browser : config.browser = true)
    (honest : memo.Honest tree.toFileSystem config.manifest)
    (context : Path)
    (origin : Option Path)
    (target : BrowserTarget) :
    (∃ package,
      (scopeOf ⟨tree.toFileSystem, config⟩ memo (tree.canonicalize context)
            origin).1 =
          some package ∧
        package.browser.module? specifier = some target) ↔
      ∃ package,
        (nearestPackage ⟨tree.toFileSystem, config⟩ .empty
              (origin.getD context)).1 =
            some package ∧
          package.browser.module? specifier = some target := by
  have sameModules := map_modules_scopeOf browser honest context origin
  generalize (scopeOf ⟨tree.toFileSystem, config⟩ memo _ origin).1 =
    scope at sameModules ⊢
  generalize (nearestPackage ⟨tree.toFileSystem, config⟩ .empty _).1 =
    fresh at sameModules ⊢
  cases scope with
  | none =>
      rw [Option.map_none, eq_comm, Option.map_eq_none_iff] at sameModules
      rw [sameModules]
  | some package =>
      obtain ⟨other, rfl, modules⟩ := Option.map_eq_some_iff.mp sameModules.symm
      simp only [Option.some.injEq, exists_eq_left',
        BrowserMap.module?, modules]

/-- A request is for nothing exactly if `false` is the module entry for the
specifier in the package around the place of the request, or the file entry for
a candidate that the request considers. -/
theorem resolution_eq_stub_iff_entry
    (keyed : tree.Keyed)
    (honest : memo.Honest tree.toFileSystem config.manifest)
    (outcome :
      resolve ⟨tree.toFileSystem, config⟩ memo context specifier origin =
        some (result, next)) :
    result.resolution = .stub ↔
      config.browser = true ∧
        ((specifier ≠ "" ∧ Specifier.isPath specifier = false ∧ ∃ package,
            (nearestPackage ⟨tree.toFileSystem, config⟩ .empty
                  (origin.getD context)).1 =
                some package ∧
              package.browser.module? specifier = some .stub) ∨
          ∃ package candidate directory,
            Considers ⟨tree.toFileSystem, config⟩ memo context specifier
                origin package candidate ∧
              PackageDescriptor.read? tree.toFileSystem config.manifest
                    directory =
                  some package ∧
                ∃ entry ∈ package.browser.fileEntries,
                  entry.2 = .stub ∧ tree.key entry.1 = tree.key candidate) := by
  rw [resolution_eq_stub_iff outcome]
  constructor
  · rintro ⟨package, kind, state, applies⟩
    obtain ⟨browser, directory, described⟩ :=
      (applies.offers honest).described package rfl
    refine ⟨browser, ?_⟩
    rcases applies.stub_cases honest with ⟨candidate, considers, entry⟩ |
      ⟨isBare, around, entry⟩
    · exact .inr ⟨package, candidate, directory, considers, described,
        (PackageDescriptor.file?_eq_some_iff_of_read? keyed described candidate
          .stub).mp entry⟩
    · have nonempty : specifier ≠ "" := applies.choose_spec.choose_spec.1.1
      exact .inl ⟨nonempty, isBare,
        (scopeOf_module?_iff browser honest context origin .stub).mp
          ⟨package, around, entry⟩⟩
  · rintro ⟨browser, ⟨nonempty, isBare, entry⟩ |
      ⟨package, candidate, directory, considers, described, entry⟩⟩
    · obtain ⟨package, around, entry⟩ :=
        (scopeOf_module?_iff browser honest context origin .stub).mpr entry
      exact ⟨package, .module, applies_module nonempty isBare around entry⟩
    · exact ⟨package, .file, considers.applies
        ((PackageDescriptor.file?_eq_some_iff_of_read? keyed described candidate
          .stub).mpr entry)⟩

/-- Each kind of answer to a request has its cause. There is a reason if the
request leads nowhere, and no other time. The specifier is refused if it is
empty, and what is not found is a path or a package as the specifier asks for.
A request is for nothing exactly if browser fields count and either the package
around the place of the request has `false` as its entry for the specifier, or
some manifest has it for a file with the key of a candidate that the request
considers. And a replacement is missing exactly if browser fields count and the
request applies a target of some manifest for which nothing is found. -/
theorem resolve_answers_have_causes
    (built : tree.Built)
    (remembers : Remembers ⟨tree.toFileSystem, config⟩ memo)
    (outcome :
      resolve ⟨tree.toFileSystem, config⟩ memo context specifier origin =
        some (result, next)) :
    (result.resolution.reason? = none ↔ ∀ reason,
      result.resolution ≠ .unresolved reason) ∧
    (result.resolution = .unresolved .specifierInvalid ↔ specifier = "") ∧
    (result.resolution = .unresolved .notFound →
      Specifier.isPath specifier = true) ∧
    (result.resolution = .unresolved .packageNotFound →
      specifier ≠ "" ∧ Specifier.isPath specifier = false) ∧
    (result.resolution = .stub ↔
      config.browser = true ∧
        ((specifier ≠ "" ∧ Specifier.isPath specifier = false ∧ ∃ package,
            (nearestPackage ⟨tree.toFileSystem, config⟩ .empty
                  (origin.getD context)).1 =
                some package ∧
              package.browser.module? specifier = some .stub) ∨
          ∃ package candidate directory,
            Considers ⟨tree.toFileSystem, config⟩ memo context specifier
                origin package candidate ∧
              PackageDescriptor.read? tree.toFileSystem config.manifest
                    directory =
                  some package ∧
                ∃ entry ∈ package.browser.fileEntries,
                  entry.2 = .stub ∧ tree.key entry.1 = tree.key candidate)) ∧
    (result.resolution = .unresolved .browserTargetNotFound ↔
      config.browser = true ∧
        ∃ package target kind directory state after,
          PackageDescriptor.read? tree.toFileSystem config.manifest directory =
              some package ∧
            package.browser.Names (.path target) kind ∧
              Applies ⟨tree.toFileSystem, config⟩ memo context specifier
                  origin package (.path target) kind state ∧
                ∀ replace,
                  searchReplacement ⟨tree.toFileSystem, config⟩ replace package
                    target kind
                    state = some (none, after)) := by
  have honest := remembers.honest
  refine ⟨?_, resolution_eq_specifierInvalid_iff outcome, ?_, ?_, ?_, ?_⟩
  · cases result.resolution <;> simp [Resolution.reason?]
  · intro unresolved
    obtain ⟨_, reason⟩ :=
      eq_missReason_of_unresolved outcome unresolved (by simp) (by simp)
    by_contra isBare
    simp [missReason, isBare] at reason
  · intro unresolved
    obtain ⟨nonempty, reason⟩ :=
      eq_missReason_of_unresolved outcome unresolved (by simp) (by simp)
    refine ⟨nonempty, ?_⟩
    by_contra isPath
    simp [missReason, isPath] at reason
  · exact resolution_eq_stub_iff_entry built.keyed honest outcome
  · rw [resolution_eq_browserTargetNotFound_iff outcome]
    constructor
    · rintro ⟨package, target, kind, state, after, applies, nothing⟩
      have offers := applies.offers honest
      obtain ⟨browser, directory, described⟩ := offers.described package rfl
      exact ⟨browser, package, target, kind, directory, state, after, described,
        offers.names, applies, nothing⟩
    · rintro ⟨_, package, target, kind, _, state, after, _, _, applies, nothing⟩
      exact ⟨package, target, kind, state, after, applies, nothing⟩

/-- A package that replaces one file by nothing and another by one that does not
exist. -/
def withdrawnFiles : FileTree :=
  FileTree.empty.insertFile (.ofString "/p/package.json")
    "\x7b\"browser\":\x7b\"./x.js\":false,\"./y.js\":\"./gone.js\"\x7d\x7d"

theorem resolve_answers_have_causes_withdrawnFiles :
    (∃ package candidate directory,
      Considers ⟨withdrawnFiles.toFileSystem, .standard⟩ .empty (.ofString "/p")
          "./x" none package candidate ∧
        PackageDescriptor.read? withdrawnFiles.toFileSystem "package.json"
              directory =
            some package ∧
          ∃ entry ∈ package.browser.fileEntries,
            entry.2 = .stub ∧
              withdrawnFiles.key entry.1 = withdrawnFiles.key candidate) ∧
    ∃ package target kind directory state after,
      PackageDescriptor.read? withdrawnFiles.toFileSystem "package.json"
            directory =
          some package ∧
        package.browser.Names (.path target) kind ∧
          Applies ⟨withdrawnFiles.toFileSystem, .standard⟩ .empty
              (.ofString "/p") "./y" none package (.path target) kind state ∧
            ∀ replace,
              searchReplacement ⟨withdrawnFiles.toFileSystem, .standard⟩ replace
                package target
                kind state = some (none, after) := by
  have built : withdrawnFiles.Built := .insertFile _ _ .empty
  have stubs :
      (resolve ⟨withdrawnFiles.toFileSystem, .standard⟩ .empty (.ofString "/p")
          "./x" none).map
        (·.1.resolution) = some .stub := by
    decide +kernel
  have fails :
      (resolve ⟨withdrawnFiles.toFileSystem, .standard⟩ .empty (.ofString "/p")
          "./y" none).map
        (·.1.resolution) = some (.unresolved .browserTargetNotFound) := by
    decide +kernel
  obtain ⟨⟨_, _⟩, outcome, resolution⟩ := Option.map_eq_some_iff.mp stubs
  obtain ⟨⟨_, _⟩, otherOutcome, otherResolution⟩ :=
    Option.map_eq_some_iff.mp fails
  obtain ⟨_, _, _, _, stub_iff, _⟩ :=
    resolve_answers_have_causes built .nothing outcome
  obtain ⟨_, _, _, _, _, missing_iff⟩ :=
    resolve_answers_have_causes built .nothing otherOutcome
  refine ⟨?_, (missing_iff.mp otherResolution).2⟩
  rcases (stub_iff.mp resolution).2 with ⟨_, isBare, _⟩ | considered
  · exact absurd isBare (by decide +kernel)
  · exact considered

end Trees

end Resolver
end CommonJs
