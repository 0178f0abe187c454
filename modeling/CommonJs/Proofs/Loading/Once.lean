import CommonJs.Proofs.Loading.Stack

/-!
# Bodies are run once

A body is started once for each record of its file. Records come and go in
pairs with failures: as long as no record is kept, each start has ended with
an error, and the record that is kept accounts for one more start. A record
that is complete stays, so its body is never started again; a file whose load
failed has no record, so the next load starts its body anew.
-/

namespace CommonJs
namespace Moment

/-- How many of these moments are the failure of a load of a file. -/
def failures (file : Path) (moments : List Moment) : Nat :=
  moments.countP fun moment => moment.phase.failing? = some file

/-- The starts of the body of a file are its failures and the one of the
record that is cached, which may still be ahead. -/
def Balanced (file : Path) (past : List Moment) (moment : Moment) : Prop :=
  moment.loader.starts file +
      (if moment.phase.opening? = some file then 1 else 0) =
    failures file past +
      if moment.loader.cache[file.components]?.isSome then 1 else 0

/-- A moment adds a failure if it is one. -/
theorem failures_cons (file : Path) (moment : Moment) (past : List Moment) :
    failures file (moment :: past) =
      failures file past + if moment.phase.failing? = some file then
        1 else 0 := by
  simp [failures, List.countP_cons]

variable {file : Path} {past : List Moment} {moment next : Moment}

/-- A load that begins makes a record whose start is still ahead. -/
theorem Balanced.opens
    (balanced : Balanced file past moment)
    (canonical : moment.loader.resolver.fileSystem.Canonical)
    (isCanonical : moment.loader.resolver.fileSystem.canonicalize file = file)
    {path : Path}
    (phase : moment.phase = .loading path)
    (fresh : moment.loader.cached? path = none) :
    Balanced file (moment :: past)
      (moment.become (moment.loader.look path)) := by
  let opened := moment.loader.resolver.fileSystem.canonicalize path
  unfold Balanced at balanced ⊢
  rw [failures_cons, Loader.look_eq_of_fresh fresh]
  have cache := moment.loader.cache_openRecord opened file.components
  simp only [phase, Phase.opening?, Phase.failing?] at balanced ⊢
  change moment.loader.starts file +
      (if some opened = some file then 1 else 0) =
    _ + if ((moment.loader.openRecord opened).2.cache[file.components]?).isSome
        then 1 else 0
  rw [cache]
  by_cases same : opened = file
  · have uncached : moment.loader.cache[file.components]? = none := same ▸ fresh
    rw [uncached] at balanced
    simpa [same] using balanced
  · have otherKey : opened.components ≠ file.components := fun sameKey =>
      same (canonical.eq_of_sameWay (canonical.canonicalize_canonicalize path)
        isCanonical sameKey)
    simpa [same, otherKey] using balanced

/-- A load that ends with an error is counted, and its record is gone. -/
theorem Balanced.closes
    (balanced : Balanced file past moment)
    (sound : moment.StackSound)
    (canonical : moment.loader.resolver.fileSystem.Canonical)
    (isCanonical : moment.loader.resolver.fileSystem.canonicalize file = file)
    {id : Nat}
    {filename : Path}
    {outcome : Except LoadError Unit}
    (phase : moment.phase = .closing id filename outcome) :
    Balanced file (moment :: past)
      (moment.become (moment.loader.close id filename outcome)) := by
  have isOpen := mem_openLoads_of_closing phase
  have own := sound.cached _ isOpen
  unfold Balanced at balanced ⊢
  rw [failures_cons]
  cases outcome with
  | ok _ =>
      simp only [phase, Phase.opening?, Phase.failing?] at balanced ⊢
      exact balanced
  | error error =>
      have cache := Loader.cache_dropRecord own file.components
      simp only [phase, Phase.opening?, Phase.failing?] at balanced ⊢
      change moment.loader.starts file + 0 = _ +
        if ((moment.loader.dropRecord filename
          id).cache[file.components]?).isSome then 1 else 0
      rw [cache]
      by_cases same : filename = file
      · subst same
        rw [own] at balanced
        simpa using balanced
      · have otherKey : filename.components ≠ file.components := fun sameKey =>
          same (canonical.eq_of_sameWay (sound.canonical _ isOpen)
            isCanonical sameKey)
        simpa [same, otherKey] using balanced

/-- A load that opens adds one to both sides, and every other step leaves them
equal. -/
theorem Balanced.of_transition
    (balanced : Balanced file past moment)
    (sound : moment.StackSound)
    (canonical : moment.loader.resolver.fileSystem.Canonical)
    (isCanonical : moment.loader.resolver.fileSystem.canonicalize file = file)
    (body : moment.loader.holdsBody file = true)
    (transition : Transition moment next) :
    Balanced file (moment :: past) next := by
  cases transition with
  | keeps opening failing nextOpening _ _ keeps =>
      unfold Balanced at balanced ⊢
      rw [opening] at balanced
      rw [failures_cons, failing, nextOpening, keeps.starts, keeps.cache]
      simpa using balanced
  | opens path phase fresh becomes =>
      subst becomes
      exact balanced.opens canonical isCanonical phase fresh
  | starts id filename phase nextOpening _ _ keeps starts =>
      unfold Balanced at balanced ⊢
      rw [phase] at balanced
      rw [failures_cons, phase, nextOpening, starts, keeps.cache]
      by_cases same : filename = file
      · subst same
        simpa [Phase.opening?, Phase.failing?, body] using balanced
      · simpa [Phase.opening?, Phase.failing?, same, Ne.symm same]
          using balanced
  | closes id filename outcome phase becomes =>
      subst becomes
      exact balanced.closes sound canonical isCanonical phase

/-! ## Complete records stay -/

/-- The record of a file is complete. -/
def HasComplete (moment : Moment) (file : Path) (id : Nat) : Prop :=
  moment.loader.cache[file.components]? = some id ∧
    ∃ filename, moment.loader.mark? id = some (filename, true)

/-- No load of a file with a complete record is open. -/
theorem StackSound.record_ne_of_hasComplete
    (sound : moment.StackSound)
    {id : Nat}
    (complete : moment.HasComplete file id)
    {load : OpenLoad}
    (isOpen : load ∈ moment.openLoads) :
    load.record ≠ id ∧ load.filename.components ≠ file.components := by
  have different : load.record ≠ id := by
    rintro rfl
    have unfinished :=
      (sound.unfinished load.record).mpr (List.mem_map_of_mem isOpen)
    obtain ⟨_, _, _, unfinished⟩ := Loader.isUnfinished_iff.mp unfinished
    obtain ⟨_, _, complete⟩ := complete
    rw [unfinished] at complete
    cases complete
  refine ⟨different, ?_⟩
  intro sameKey
  have own := sound.cached load isOpen
  rw [sameKey, complete.1] at own
  exact different (Option.some.inj own).symm

/-- A complete record outlives every step, and its body is not started. -/
theorem HasComplete.of_transition
    {id : Nat}
    (complete : moment.HasComplete file id)
    (sound : moment.StackSound)
    (transition : Transition moment next) :
    next.HasComplete file id ∧
      next.loader.starts file = moment.loader.starts file := by
  have ⟨cached, original, mark⟩ := complete
  cases transition with
  | keeps _ _ _ _ _ keeps =>
      exact ⟨⟨keeps.cache ▸ cached, original, (keeps.marks id).trans mark⟩,
        keeps.starts file⟩
  | opens path phase fresh becomes =>
      subst becomes
      rw [Loader.look_eq_of_fresh fresh]
      refine ⟨⟨?_, original, ?_⟩, rfl⟩
      · refine (moment.loader.cache_openRecord _ _).trans ?_
        rw [if_neg, cached]
        intro sameKey
        have uncached : moment.loader.cache[file.components]? = none :=
          sameKey ▸ fresh
        rw [uncached] at cached
        cases cached
      · refine (moment.loader.mark?_openRecord _ _).trans ?_
        rw [if_neg (sound.keyed.ne_size cached), mark]
  | starts opened filename phase _ _ _ keeps starts =>
      have isOpen : ⟨opened, filename⟩ ∈ moment.openLoads := by
        simp [openLoads, phase, Phase.openLoad?]
      have otherKey := (sound.record_ne_of_hasComplete complete isOpen).2
      have otherFile : file ≠ filename := by
        rintro rfl
        exact otherKey rfl
      refine ⟨⟨keeps.cache ▸ cached, original, (keeps.marks id).trans mark⟩, ?_⟩
      simp [starts, otherFile]
  | closes closed filename outcome phase becomes =>
      subst becomes
      have isOpen := mem_openLoads_of_closing phase
      obtain ⟨otherRecord, otherKey⟩ :=
        sound.record_ne_of_hasComplete complete isOpen
      have own := sound.cached _ isOpen
      cases outcome with
      | ok _ =>
          refine ⟨⟨cached, original, ?_⟩, rfl⟩
          refine (moment.loader.mark?_finishRecord _ _).trans ?_
          rw [if_neg (Ne.symm otherRecord), mark]
      | error error =>
          refine ⟨⟨?_, original, mark⟩, rfl⟩
          refine (Loader.cache_dropRecord own _).trans ?_
          rw [if_neg otherKey, cached]

/-! ## Failed loads begin anew -/

/-- Once a load of a file has failed, the file is not cached until it is
loaded again. -/
theorem uncached_of_transition
    (sound : moment.StackSound)
    (canonical : moment.loader.resolver.fileSystem.Canonical)
    (isCanonical : moment.loader.resolver.fileSystem.canonicalize file = file)
    (uncached : moment.loader.cache[file.components]? = none)
    (otherLoad : ∀ path, moment.phase = .loading path →
      moment.loader.resolver.fileSystem.canonicalize path ≠ file)
    (transition : Transition moment next) :
    next.loader.cache[file.components]? = none := by
  cases transition with
  | keeps _ _ _ _ _ keeps => rw [keeps.cache, uncached]
  | opens path phase fresh becomes =>
      subst becomes
      rw [Loader.look_eq_of_fresh fresh]
      refine (moment.loader.cache_openRecord _ _).trans ?_
      rw [if_neg, uncached]
      intro sameKey
      exact otherLoad path phase
        (canonical.eq_of_sameWay (canonical.canonicalize_canonicalize path)
          isCanonical sameKey)
  | starts _ _ _ _ _ _ keeps => rw [keeps.cache, uncached]
  | closes closed filename outcome phase becomes =>
      subst becomes
      cases outcome with
      | ok _ => exact uncached
      | error error =>
          have own := sound.cached _ (mem_openLoads_of_closing phase)
          refine (Loader.cache_dropRecord own _).trans ?_
          rw [uncached, ite_self]

/-- A load that fails leaves its file uncached. -/
theorem uncached_of_failing
    (sound : moment.StackSound)
    {id : Nat}
    {error : LoadError}
    (phase : moment.phase = .closing id file (.error error))
    (transition : Transition moment next) :
    next.loader.cache[file.components]? = none := by
  have own := sound.cached _ (mem_openLoads_of_closing phase)
  cases transition with
  | keeps _ failing =>
      rw [phase] at failing
      cases failing
  | opens _ otherPhase => cases phase.symm.trans otherPhase
  | starts _ _ otherPhase => cases phase.symm.trans otherPhase
  | closes _ _ _ samePhase becomes =>
      cases phase.symm.trans samePhase
      subst becomes
      exact (Loader.cache_dropRecord own _).trans (if_pos rfl)

/-- The first two steps of a load that finds no record make one and start the
body. -/
theorem starts_of_uncached
    {path : Path}
    (phase : moment.phase = .loading path)
    (isFile : moment.loader.resolver.fileSystem.canonicalize path = file)
    (uncached : moment.loader.cache[file.components]? = none)
    (body : moment.loader.holdsBody file = true) :
    ∃ opened started,
      moment.step = some opened ∧ opened.step = some started ∧
        started.loader.starts file = moment.loader.starts file + 1 := by
  subst isFile
  have fresh : moment.loader.cached? path = none := uncached
  let filename := moment.loader.resolver.fileSystem.canonicalize path
  let after := (moment.loader.openRecord filename).2
  let opened :=
    moment.become (.opened moment.loader.records.size filename, after)
  let started := opened.become (after.start moment.loader.records.size filename)
  refine ⟨opened, started, ?_, rfl, ?_⟩
  · simp only [step, phase, Loader.look_eq_of_fresh fresh]
    rfl
  · refine ((after.started _ filename).spec.2.2.2 filename).trans ?_
    rw [if_pos ⟨rfl, body⟩]
    rfl

namespace Run

variable {loader : Loader}

/-- What a file holds does not change. -/
theorem holdsBody_eq
    (run : Run (initial loader) past moment)
    (file : Path) : moment.loader.holdsBody file = loader.holdsBody file := by
  rw [Loader.holdsBody, run.fileSystem_eq, Loader.holdsBody]

theorem cached?_eq
    (run : Run (initial loader) past moment)
    (path : Path) :
    moment.loader.cached? path =
      moment.loader.cache[(loader.resolver.fileSystem.canonicalize
        path).components]? := by
  rw [Loader.cached?, run.fileSystem_eq]

/-- By induction on the run, a body is started once for each failure and once
for the record that is cached. -/
theorem balanced
    (run : Run (initial loader) past moment)
    (initially : (initial loader).StackSound)
    (canonical : loader.resolver.fileSystem.Canonical)
    (isCanonical : loader.resolver.fileSystem.canonicalize file = file)
    (body : loader.holdsBody file = true)
    (none : Balanced file [] (initial loader)) : Balanced file past moment := by
  induction run with
  | start => exact none
  | next run follows inductionHypothesis =>
      have sameFiles := run.fileSystem_eq
      refine inductionHypothesis.of_transition
        (run.stackSound initially canonical) ?_ ?_ ?_ (run.transition follows)
      · rw [sameFiles]
        exact canonical
      · rw [sameFiles]
        exact isCanonical
      · rw [run.holdsBody_eq, body]

/-- A complete record stays for the rest of the run. -/
theorem hasComplete
    {since : List Moment}
    {later : Moment}
    {id : Nat}
    (run : Run (initial loader) past moment)
    (initially : (initial loader).StackSound)
    (canonical : loader.resolver.fileSystem.Canonical)
    (complete : moment.HasComplete file id)
    (continues : Run moment since later) :
    later.HasComplete file id ∧
      later.loader.starts file = moment.loader.starts file := by
  induction continues with
  | start => exact ⟨complete, rfl⟩
  | next continues follows inductionHypothesis =>
      have whole := run.append continues
      obtain ⟨complete, starts⟩ := inductionHypothesis
      obtain ⟨completeNext, startsNext⟩ :=
        complete.of_transition (whole.stackSound initially canonical)
          (whole.transition follows)
      exact ⟨completeNext, startsNext.trans starts⟩

/-- After a failed load of a file the file is not cached until a load of it
begins. -/
theorem uncached_of_failed
    {since : List Moment}
    {later : Moment}
    {id : Nat}
    {error : LoadError}
    (run : Run (initial loader) past moment)
    (initially : (initial loader).StackSound)
    (canonical : loader.resolver.fileSystem.Canonical)
    (isCanonical : loader.resolver.fileSystem.canonicalize file = file)
    (failed : moment.phase = .closing id file (.error error))
    (continues : Run moment since later)
    (otherLoads : ∀ between ∈ since, ∀ path, between.phase = .loading path →
      loader.resolver.fileSystem.canonicalize path ≠ file) :
    later = moment ∨ later.loader.cache[file.components]? = none := by
  induction continues with
  | start => exact Or.inl rfl
  | next continues follows inductionHypothesis =>
      right
      have whole := run.append continues
      have sound := whole.stackSound initially canonical
      have transition := whole.transition follows
      have sameFiles := whole.fileSystem_eq
      rcases inductionHypothesis fun between member =>
        otherLoads between (by simp [member]) with rfl | uncached
      · exact uncached_of_failing sound failed transition
      · refine uncached_of_transition sound (sameFiles ▸ canonical)
          (sameFiles ▸ isCanonical) uncached ?_ transition
        rw [sameFiles]
        exact otherLoads _ (by simp)

end Run

/-- A file of a tree that is no data holds a body. -/
theorem holdsBody_of_stat
    {tree : FileTree}
    (built : tree.Built)
    (config : ResolverConfig)
    (bodies : List (String × Script))
    {path : Path}
    (isFile : tree.stat path = some .file)
    (isBody : Loading.isData (tree.canonicalize path) = false) :
    (Loader.new ⟨tree.toFileSystem, config⟩ bodies).holdsBody
      (tree.canonicalize path) = true := by
  rw [← FileTree.stat_canonicalize built.keyed] at isFile
  obtain ⟨text, read⟩ := FileTree.read_eq_ok_of_stat isFile
  have readHere : (Loader.new ⟨tree.toFileSystem, config⟩
        bodies).resolver.fileSystem.read
      (tree.canonicalize path) = .ok text := read
  simp [Loader.holdsBody, readHere, isBody, Except.isOk, Except.toBool]

/-- For a file of a tree that holds a body, at every moment of every run:

* the body was started as often as it failed, and once more if the file has a
  record, unless the record was made just now and the body is still to start;
* if the record of the file is complete, it stays in the cache for the rest of
  the run, and the body is not started again;
* if a load of the file ends with an error, the next load of the file starts
  the body again. -/
theorem starts_eq_failures_add_cached
    {tree : FileTree}
    (built : tree.Built)
    (config : ResolverConfig)
    (bodies : List (String × Script))
    {path : Path}
    (isFile : tree.stat path = some .file)
    (isBody : Loading.isData (tree.canonicalize path) = false)
    {past : List Moment}
    {moment : Moment}
    (run :
      Run (initial (.new ⟨tree.toFileSystem, config⟩ bodies)) past moment) :
    (moment.phase.opening? ≠ some (tree.canonicalize path) →
      moment.loader.starts (tree.canonicalize path) =
        failures (tree.canonicalize path) past +
          if (moment.loader.cached? path).isSome then 1 else 0) ∧
      (∀ id record, moment.loader.cached? path = some id →
        moment.loader.record? id = some record → record.loaded = true →
          ∀ since later, Run moment since later →
            later.loader.cached? path = some id ∧
              (∃ kept, later.loader.record? id = some kept ∧
                  kept.loaded = true) ∧
                later.loader.starts (tree.canonicalize path) =
                  moment.loader.starts (tree.canonicalize path)) ∧
        ∀ id error,
          moment.phase = .closing id (tree.canonicalize path) (.error error) →
            ∀ since later request, Run moment since later →
              later.phase = .loading request →
                tree.canonicalize request = tree.canonicalize path →
                  (∀ between ∈ since, ∀ other, between.phase = .loading other →
                    tree.canonicalize other ≠ tree.canonicalize path) →
                    ∃ opened started,
                      later.step = some opened ∧ opened.step = some started ∧
                        started.loader.starts (tree.canonicalize path) =
                          later.loader.starts (tree.canonicalize path) + 1 := by
  let file := tree.canonicalize path
  have canonical := built.canonical
  have isCanonical : tree.canonicalize file = file :=
    canonical.canonicalize_canonicalize path
  have initially := StackSound.initial ⟨tree.toFileSystem, config⟩ bodies
  have body := holdsBody_of_stat built config bodies isFile isBody
  refine ⟨?_, ?_, ?_⟩
  · intro otherPhase
    have balanced := run.balanced initially canonical isCanonical body rfl
    unfold Balanced at balanced
    rw [if_neg otherPhase] at balanced
    rw [run.cached?_eq]
    exact balanced
  · intro id record isCached found loaded since later continues
    have complete : moment.HasComplete file id := by
      refine ⟨(run.cached?_eq path).symm.trans isCached, record.filename, ?_⟩
      exact Loader.mark?_eq_some_iff.mpr ⟨record, found, rfl, loaded⟩
    obtain ⟨⟨stillCached, filename, mark⟩, starts⟩ :=
      run.hasComplete initially canonical complete continues
    obtain ⟨kept, found, _, loaded⟩ := Loader.mark?_eq_some_iff.mp mark
    exact ⟨((run.append continues).cached?_eq path).trans stillCached,
      ⟨kept, found, loaded⟩, starts⟩
  · intro id error failed since later request continues loads isFile otherLoads
    have whole := run.append continues
    have uncached : later.loader.cache[file.components]? = none := by
      rcases run.uncached_of_failed initially canonical isCanonical failed
        continues otherLoads with rfl | uncached
      · cases failed.symm.trans loads
      · exact uncached
    refine starts_of_uncached loads ?_ uncached
      (by rw [whole.holdsBody_eq, body])
    rw [whole.fileSystem_eq]
    exact isFile

/-- A body that fails twice before it succeeds. -/
def retriedTree : FileTree :=
  (FileTree.empty.insertFile (.ofString "/p/a.js") "a").insertFile
    (.ofString "/p/b.js") "b"

def retriedBodies : List (String × Script) :=
  [("a", [.tryRequire "./b.js" "b", .tryRequire "./b.js" "b",
      .require "./b.js" "b"]),
    ("b", [.failFirst 2])]

/-- A body that fails twice is started three times. -/
theorem starts_eq_failures_add_cached_retriedTree :
    ∃ past answer loader,
      Run (initial (.new ⟨retriedTree.toFileSystem, .standard⟩ retriedBodies))
          past ⟨.resting answer, [], none, loader⟩ ∧
        loader.starts (.ofString "/p/b.js") = 3 ∧
          failures (.ofString "/p/b.js") past = 2 := by
  have built : retriedTree.Built := .insertFile _ _ (.insertFile _ _ .empty)
  have performed :
      ((Loader.new ⟨retriedTree.toFileSystem, .standard⟩ retriedBodies).perform
          (.requireFrom (.ofString "/p") "./a" none)).map
        (fun outcome => (outcome.2.starts (.ofString "/p/b.js"),
          (outcome.2.cached? (.ofString "/p/b.js")).isSome)) =
            some (3, true) := by
    decide +kernel
  obtain ⟨⟨answer, loader⟩, performed, shape⟩ :=
    Option.map_eq_some_iff.mp performed
  obtain ⟨count, kept⟩ := Prod.mk.inj shape
  have reaches : Loader.Reaches _ loader := .perform .start performed
  obtain ⟨past, last, run⟩ := reaches.run
  have spelling : retriedTree.canonicalize (.ofString "/p/b.js") =
      .ofString "/p/b.js" := by
    decide +kernel
  have isFile : retriedTree.stat (.ofString "/p/b.js") = some .file := by
    decide +kernel
  have isBody : Loading.isData
      (retriedTree.canonicalize (.ofString "/p/b.js")) = false := by
    decide +kernel
  have once := (starts_eq_failures_add_cached built .standard retriedBodies
      isFile isBody run).1
    nofun
  rw [spelling, if_pos kept, count] at once
  exact ⟨past, last, loader, run, count, by omega⟩

end Moment
end CommonJs
