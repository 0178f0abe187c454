import CommonJs.Proofs.FileSystem.Canonical
import CommonJs.Proofs.Loading.Correspondence
import CommonJs.Proofs.Loading.Transition

/-!
# The call stack and the cache

The unfinished records of the cache are exactly those of the open loads. The
open loads are of different files, and each file is still cached under the
record that its load made, so a load that fails takes away its own record and
no other one. Once an operation is over no load is open, and all the cached
records are complete.
-/

namespace CommonJs
namespace Loader

/-- A cached record that is not complete. -/
def IsUnfinished (loader : Loader) (id : Nat) : Prop :=
  ∃ (key : List Component) (record : ModuleRecord),
    loader.cache[key]? = some id ∧ loader.record? id = some record ∧
      record.loaded = false

/-- Every cached record is there, it is cached under its own path, and the
path is canonical. -/
def CacheSound (loader : Loader) : Prop :=
  ∀ key id, loader.cache[key]? = some id →
    ∃ record,
      loader.record? id = some record ∧
        record.filename.components = key ∧
          loader.resolver.fileSystem.canonicalize record.filename =
            record.filename

theorem mark?_eq_some_iff
    {loader : Loader}
    {id : Nat}
    {filename : Path}
    {loaded : Bool} :
    loader.mark? id = some (filename, loaded) ↔
      ∃ record,
        loader.record? id = some record ∧ record.filename = filename ∧
          record.loaded = loaded := by
  simp [mark?]

/-- Unfinished records are those in the cache that are marked so. -/
theorem isUnfinished_iff {loader : Loader} {id : Nat} :
    loader.IsUnfinished id ↔
      ∃ (key : List Component) (filename : Path),
        loader.cache[key]? = some id ∧
          loader.mark? id = some (filename, false) := by
  constructor
  · rintro ⟨key, record, cached, found, unfinished⟩
    exact ⟨key, record.filename, cached,
      mark?_eq_some_iff.mpr ⟨record, found, rfl, unfinished⟩⟩
  · rintro ⟨key, filename, cached, mark⟩
    obtain ⟨record, found, _, unfinished⟩ := mark?_eq_some_iff.mp mark
    exact ⟨key, record, cached, found, unfinished⟩

/-- A cache is sound by the marks of its records. -/
theorem cacheSound_iff {loader : Loader} :
    loader.CacheSound ↔
      ∀ key id, loader.cache[key]? = some id →
        ∃ filename loaded,
          loader.mark? id = some (filename, loaded) ∧
            filename.components = key ∧
              loader.resolver.fileSystem.canonicalize filename = filename := by
  constructor
  · intro sound key id cached
    obtain ⟨record, found, isKey, canonical⟩ := sound key id cached
    exact ⟨record.filename, record.loaded,
      mark?_eq_some_iff.mpr ⟨record, found, rfl, rfl⟩, isKey, canonical⟩
  · intro sound key id cached
    obtain ⟨filename, loaded, mark, isKey, canonical⟩ := sound key id cached
    obtain ⟨record, found, rfl, _⟩ := mark?_eq_some_iff.mp mark
    exact ⟨record, found, isKey, canonical⟩

/-- A record is cached under one key only. -/
theorem CacheSound.key_eq
    {loader : Loader}
    (sound : loader.CacheSound)
    {first second : List Component}
    {id : Nat}
    (cachedFirst : loader.cache[first]? = some id)
    (cachedSecond : loader.cache[second]? = some id) : first = second := by
  obtain ⟨record, found, rfl, _⟩ := sound first id cachedFirst
  obtain ⟨other, foundOther, rfl, _⟩ := sound second id cachedSecond
  obtain rfl := Option.some.inj (found.symm.trans foundOther)
  rfl

/-! ## What each operation does to the cache -/

section Keeps

variable {before after : Loader}

/-- The same loads are unfinished where loads are kept. -/
theorem KeepsLoads.isUnfinished
    (keeps : before.KeepsLoads after)
    (id : Nat) : after.IsUnfinished id ↔ before.IsUnfinished id := by
  simp only [isUnfinished_iff, keeps.cache, keeps.marks]

/-- A cache stays sound where loads are kept. -/
theorem KeepsLoads.cacheSound
    (keeps : before.KeepsLoads after)
    (sound : before.CacheSound) : after.CacheSound := by
  rw [cacheSound_iff] at sound ⊢
  simpa only [keeps.cache, keeps.marks, keeps.fileSystem] using sound

end Keeps

/-- A new record is marked as unfinished. -/
theorem mark?_openRecord (loader : Loader) (filename : Path) (id : Nat) :
    (loader.openRecord filename).2.mark? id =
      if id = loader.records.size then some (filename, false)
        else loader.mark? id := by
  have pushed : (loader.openRecord filename).2.record? id =
      if id = loader.records.size then
        some ⟨filename, loader.newObject.1, false⟩
      else loader.record? id := by
    simp [openRecord, record?, newObject, Array.getElem?_push]
  rw [mark?, pushed]
  split
  · rfl
  · rfl

/-- A record that is complete is marked as loaded. -/
theorem mark?_finishRecord (loader : Loader) (finished id : Nat) :
    (loader.finishRecord finished).mark? id =
      if id = finished then (loader.mark? id).map fun mark => (mark.1, true)
      else loader.mark? id := by
  by_cases same : id = finished
  · subst same
    simp only [mark?, record?, finishRecord, Array.getElem?_modify, if_true,
      Option.map_map]
    rfl
  · simp [mark?, record?, finishRecord, Array.getElem?_modify, same,
      Ne.symm same]

/-- A new record takes the place of its file in the cache. -/
theorem cache_openRecord
    (loader : Loader)
    (filename : Path)
    (key : List Component) :
    (loader.openRecord filename).2.cache[key]? =
      if filename.components = key then some loader.records.size
        else loader.cache[key]? := by
  change (loader.cache.insert filename.components loader.records.size)[key]? = _
  simp [Std.TreeMap.getElem?_insert]

/-- A record that fails leaves the cache if it is the one of its file. -/
theorem cache_dropRecord
    {loader : Loader}
    {filename : Path}
    {id : Nat}
    (own : loader.cache[filename.components]? = some id)
    (key : List Component) :
    (loader.dropRecord filename id).cache[key]? =
      if filename.components = key then none else loader.cache[key]? := by
  simp [dropRecord, own, Std.TreeMap.getElem?_erase]

/-- A new record does not yet have an identity that is in the cache. -/
theorem CacheSound.ne_size
    {loader : Loader}
    (sound : loader.CacheSound)
    {key : List Component}
    {id : Nat}
    (cached : loader.cache[key]? = some id) : id ≠ loader.records.size := by
  rintro rfl
  obtain ⟨record, found, _⟩ := sound key _ cached
  simp [record?] at found

/-- A record may be opened for a canonical path. -/
theorem CacheSound.openRecord
    {loader : Loader}
    (sound : loader.CacheSound)
    {filename : Path}
    (canonical : loader.resolver.fileSystem.canonicalize filename = filename) :
    (loader.openRecord filename).2.CacheSound := by
  rw [cacheSound_iff]
  intro key id cached
  rw [cache_openRecord] at cached
  split at cached
  next isKey =>
    obtain rfl := Option.some.inj cached
    exact ⟨filename, false, by simp [mark?_openRecord], isKey, canonical⟩
  next _ =>
    obtain ⟨other, loaded, mark, isKey, canonical⟩ :=
      cacheSound_iff.mp sound key id cached
    refine ⟨other, loaded, ?_, isKey, canonical⟩
    rw [mark?_openRecord, if_neg (sound.ne_size cached), mark]

/-- A record may be completed. -/
theorem CacheSound.finishRecord
    {loader : Loader}
    (sound : loader.CacheSound)
    (id : Nat) : (loader.finishRecord id).CacheSound := by
  rw [cacheSound_iff] at sound ⊢
  intro key other cached
  obtain ⟨filename, loaded, mark, isKey, canonical⟩ := sound key other cached
  by_cases same : other = id
  · subst same
    exact ⟨filename, true, by simp [mark?_finishRecord, mark], isKey, canonical⟩
  · exact ⟨filename, loaded,
      by simp [mark?_finishRecord, same, mark], isKey, canonical⟩

/-- A record may be taken out of its own place. -/
theorem CacheSound.dropRecord
    {loader : Loader}
    (sound : loader.CacheSound)
    {filename : Path}
    {id : Nat}
    (own : loader.cache[filename.components]? = some id) :
    (loader.dropRecord filename id).CacheSound := by
  intro key other cached
  rw [cache_dropRecord own] at cached
  split at cached
  next _ => cases cached
  next _ => exact sound key other cached

/-- One more record is unfinished when it is opened. -/
theorem isUnfinished_openRecord
    {loader : Loader}
    (sound : loader.CacheSound)
    {filename : Path}
    (fresh : loader.cache[filename.components]? = none)
    (id : Nat) :
    (loader.openRecord filename).2.IsUnfinished id ↔
      id = loader.records.size ∨ loader.IsUnfinished id := by
  simp only [isUnfinished_iff, cache_openRecord, mark?_openRecord]
  constructor
  · rintro ⟨key, file, cached, mark⟩
    by_cases new : id = loader.records.size
    · exact Or.inl new
    · rw [if_neg new] at mark
      split at cached
      next _ => exact absurd (Option.some.inj cached).symm new
      next _ => exact Or.inr ⟨key, file, cached, mark⟩
  · rintro (rfl | ⟨key, file, cached, mark⟩)
    · exact ⟨filename.components, filename, by simp⟩
    · have other : filename.components ≠ key := by
        rintro rfl
        rw [fresh] at cached
        cases cached
      exact ⟨key, file, by rw [if_neg other,
        cached], by rw [if_neg (sound.ne_size cached), mark]⟩

/-- One record less is unfinished when it is completed. -/
theorem isUnfinished_finishRecord
    (loader : Loader)
    (finished id : Nat) :
    (loader.finishRecord finished).IsUnfinished id ↔
      id ≠ finished ∧ loader.IsUnfinished id := by
  have sameCache : (loader.finishRecord finished).cache = loader.cache := rfl
  simp only [isUnfinished_iff, mark?_finishRecord, sameCache]
  by_cases same : id = finished
  · simp [same]
  · simp [same]

/-- One record less is unfinished when it is dropped. -/
theorem isUnfinished_dropRecord
    {loader : Loader}
    (sound : loader.CacheSound)
    {filename : Path}
    {dropped : Nat}
    (own : loader.cache[filename.components]? = some dropped)
    (id : Nat) :
    (loader.dropRecord filename dropped).IsUnfinished id ↔
      id ≠ dropped ∧ loader.IsUnfinished id := by
  constructor
  · rintro ⟨key, record, cached, found, unfinished⟩
    rw [cache_dropRecord own] at cached
    split at cached
    next _ => cases cached
    next other =>
      refine ⟨?_, key, record, cached, found, unfinished⟩
      rintro rfl
      exact other (sound.key_eq own cached)
  · rintro ⟨other, key, record, cached, found, unfinished⟩
    refine ⟨key, record, ?_, found, unfinished⟩
    rw [cache_dropRecord own, if_neg, cached]
    rintro rfl
    exact other (Option.some.inj (cached.symm.trans own))

/-- When a load ends, its record is no longer unfinished, and nothing else in
the cache changes. -/
theorem close_spec
    {loader : Loader}
    (sound : loader.CacheSound)
    {filename : Path}
    {id : Nat}
    (own : loader.cache[filename.components]? = some id)
    (outcome : Except LoadError Unit) :
    (loader.close id filename outcome).2.CacheSound ∧
      (∀ other, (loader.close id filename outcome).2.IsUnfinished other ↔
        other ≠ id ∧ loader.IsUnfinished other) ∧
        (∀ key, filename.components ≠ key →
          (loader.close id filename outcome).2.cache[key]? =
            loader.cache[key]?) ∧
          (loader.close id filename outcome).2.loading =
            loader.loading.tail := by
  cases outcome with
  | ok _ =>
      exact ⟨sound.finishRecord id, loader.isUnfinished_finishRecord id,
        fun _ _ => rfl, rfl⟩
  | error error =>
      refine ⟨sound.dropRecord own, isUnfinished_dropRecord sound own, ?_, rfl⟩
      intro key other
      exact (cache_dropRecord own key).trans (if_neg other)

end Loader

namespace Moment

/-- What holds of the call stack and the cache at every moment of a run. -/
structure StackSound (moment : Moment) : Prop where
  /-- The unfinished records are those of the open loads. -/
  unfinished : ∀ id,
    moment.loader.IsUnfinished id ↔ id ∈ moment.openLoads.map OpenLoad.record
  /-- The open loads are of different files. -/
  distinct : (moment.openLoads.map fun load => load.filename.components).Nodup
  /-- The files of the open loads are known by their canonical paths. -/
  canonical : ∀ load ∈ moment.openLoads,
    moment.loader.resolver.fileSystem.canonicalize load.filename = load.filename
  /-- A file that is loading is cached under the record that its load made. -/
  cached : ∀ load ∈ moment.openLoads,
    moment.loader.cache[load.filename.components]? = some load.record
  /-- Cached records lie under their own canonical paths. -/
  keyed : moment.loader.CacheSound
  /-- The loader lists the open loads as well. -/
  listed : moment.loader.loading = moment.openLoads.map OpenLoad.record

namespace StackSound

variable {moment next : Moment}

/-- What leaves loads alone keeps the stack and the cache in step. -/
theorem of_keepsLoads
    (sound : moment.StackSound)
    (openLoads : next.openLoads = moment.openLoads)
    (keeps : moment.loader.KeepsLoads next.loader) : next.StackSound where
  unfinished id := by rw [keeps.isUnfinished, openLoads, sound.unfinished]
  distinct := openLoads ▸ sound.distinct
  canonical := by
    rw [openLoads, keeps.fileSystem]
    exact sound.canonical
  cached := by
    rw [openLoads, keeps.cache]
    exact sound.cached
  keyed := keeps.cacheSound sound.keyed
  listed := by rw [keeps.loading, openLoads, sound.listed]

/-- A path that is not cached gets a record of its own, and its load becomes
the innermost one. -/
theorem opens
    (sound : moment.StackSound)
    (canonical : moment.loader.resolver.fileSystem.Canonical)
    {path : Path}
    (phase : moment.phase = .loading path)
    (fresh : moment.loader.cached? path = none) :
    (moment.become (moment.loader.look path)).StackSound := by
  let filename := moment.loader.resolver.fileSystem.canonicalize path
  let load : OpenLoad := ⟨moment.loader.records.size, filename⟩
  have isCanonical : moment.loader.resolver.fileSystem.canonicalize filename =
      filename :=
    canonical.canonicalize_canonicalize path
  have looked : moment.loader.look path =
      (.opened moment.loader.records.size filename,
        (moment.loader.openRecord filename).2) := Loader.look_eq_of_fresh fresh
  have openLoads :
      (moment.become (moment.loader.look path)).openLoads =
        load :: moment.openLoads :=
    openLoads_become_look phase fresh
  have uncached : moment.loader.cache[filename.components]? = none := fresh
  have otherKey : ∀ other ∈ moment.openLoads,
      filename.components ≠ other.filename.components := by
    intro other isOpen same
    have cached := sound.cached other isOpen
    rw [← same, uncached] at cached
    cases cached
  rw [looked] at openLoads ⊢
  refine ⟨?_, ?_, ?_, ?_, sound.keyed.openRecord isCanonical, ?_⟩
  · intro id
    rw [openLoads, List.map_cons, List.mem_cons, ← sound.unfinished id]
    exact Loader.isUnfinished_openRecord sound.keyed uncached id
  · rw [openLoads, List.map_cons, List.nodup_cons]
    refine ⟨?_, sound.distinct⟩
    intro member
    obtain ⟨other, isOpen, same⟩ := List.mem_map.mp member
    exact otherKey other isOpen same.symm
  · rw [openLoads]
    intro other isOpen
    rcases List.mem_cons.mp isOpen with rfl | isOpen
    · exact isCanonical
    · exact sound.canonical other isOpen
  · rw [openLoads]
    intro other isOpen
    rcases List.mem_cons.mp isOpen with rfl | isOpen
    · exact (moment.loader.cache_openRecord filename _).trans (if_pos rfl)
    · refine (moment.loader.cache_openRecord filename _).trans ?_
      rw [if_neg (otherKey other isOpen), sound.cached other isOpen]
  · rw [openLoads, List.map_cons, ← sound.listed]
    rfl

/-- The innermost load is of another record than the ones around it. -/
theorem record_notMem_of_openLoads_eq_cons
    (sound : moment.StackSound)
    {load : OpenLoad}
    {others : List OpenLoad}
    (openLoads : moment.openLoads = load :: others) :
    load.record ∉ others.map OpenLoad.record := by
  intro member
  obtain ⟨other, isOpen, same⟩ := List.mem_map.mp member
  have distinct := sound.distinct
  rw [openLoads, List.map_cons, List.nodup_cons] at distinct
  have own := sound.cached load (by simp [openLoads])
  have cached := sound.cached other (by simp [openLoads, isOpen])
  rw [same] at cached
  exact distinct.1
    (List.mem_map.mpr ⟨other, isOpen, sound.keyed.key_eq cached own⟩)

/-- When the innermost load ends, its record is complete or gone from the
cache, and the other ones are as they were. -/
theorem closes
    (sound : moment.StackSound)
    {id : Nat}
    {filename : Path}
    {outcome : Except LoadError Unit}
    (phase : moment.phase = .closing id filename outcome) :
    (moment.become (moment.loader.close id filename outcome)).StackSound := by
  let others := moment.waiting.map Waiting.openLoad
  have before : moment.openLoads = ⟨id, filename⟩ :: others :=
    openLoads_of_closing phase
  have openLoads :
      (moment.become (moment.loader.close id filename outcome)).openLoads =
        others :=
    openLoads_become_close moment id filename outcome
  have own := sound.cached _ (mem_openLoads_of_closing phase)
  have notOther := sound.record_notMem_of_openLoads_eq_cons before
  obtain ⟨otherFile, distinct⟩ : filename.components ∉
        others.map (·.filename.components) ∧
      (others.map (·.filename.components)).Nodup := by
    have distinct := sound.distinct
    rw [before, List.map_cons, List.nodup_cons] at distinct
    exact distinct
  have sameFiles := (Transition.closes id filename outcome phase rfl).fileSystem
  obtain ⟨keyed, unfinished, sameCache, listed⟩ :=
    Loader.close_spec sound.keyed own outcome
  refine ⟨?_, ?_, ?_, ?_, keyed, ?_⟩
  · intro other
    rw [openLoads]
    refine (unfinished other).trans ?_
    rw [sound.unfinished, before, List.map_cons, List.mem_cons]
    constructor
    · rintro ⟨different, rfl | member⟩
      · exact absurd rfl different
      · exact member
    · intro member
      refine ⟨?_, Or.inr member⟩
      rintro rfl
      exact notOther member
  · rw [openLoads]
    exact distinct
  · rw [openLoads]
    intro load isOpen
    refine
      (congrArg (FileSystem.canonicalize · load.filename) sameFiles).trans ?_
    exact sound.canonical load (by simp [before, isOpen])
  · rw [openLoads]
    intro load isOpen
    refine (sameCache _ ?_).trans (sound.cached load (by simp [before, isOpen]))
    intro same
    exact otherFile (List.mem_map.mpr ⟨load, isOpen, same.symm⟩)
  · rw [openLoads]
    refine listed.trans ?_
    rw [sound.listed, before]
    rfl

/-- A load that opens is pushed and cached, and one that closes is popped and
completed or dropped. -/
theorem of_transition
    (sound : moment.StackSound)
    (canonical : moment.loader.resolver.fileSystem.Canonical)
    (transition : Transition moment next) : next.StackSound := by
  cases transition with
  | keeps _ _ _ _ openLoads loader =>
      exact sound.of_keepsLoads openLoads loader.toKeepsLoads
  | opens path phase fresh becomes =>
      subst becomes
      exact sound.opens canonical phase fresh
  | starts id filename _ _ _ openLoads loader =>
      exact sound.of_keepsLoads openLoads loader
  | closes id filename outcome phase becomes =>
      subst becomes
      exact sound.closes phase

theorem initial
    (resolver : Resolver)
    (bodies : List (String × Script)) :
    (Moment.initial (Loader.new resolver bodies)).StackSound where
  unfinished id := by
    simp [Loader.isUnfinished_iff, Loader.new, Moment.initial, openLoads,
      Phase.openLoad?]
  distinct := List.nodup_nil
  canonical load isOpen := by cases isOpen
  cached load isOpen := by cases isOpen
  keyed key id cached := by simp [Loader.new, Moment.initial] at cached
  listed := rfl

/-- Without open loads all the cached records are complete. -/
theorem loaded_of_openLoads_eq_nil
    (sound : moment.StackSound)
    (noLoads : moment.openLoads = []) :
    ∀ record ∈ moment.loader.cachedRecords, record.loaded = true := by
  intro record member
  obtain ⟨⟨key, id⟩, entry, found⟩ := List.mem_filterMap.mp member
  have cached := Std.TreeMap.mem_toList_iff_getElem?_eq_some.mp entry
  by_contra incomplete
  have unfinished : moment.loader.IsUnfinished id :=
    ⟨key, record, cached, found, by simpa using incomplete⟩
  rw [sound.unfinished, noLoads] at unfinished
  cases unfinished

end StackSound

/-- By induction on the run, stack and cache are in step at every moment. -/
theorem Run.stackSound
    {loader : Loader}
    {past : List Moment}
    {moment : Moment}
    (initially : (initial loader).StackSound)
    (canonical : loader.resolver.fileSystem.Canonical)
    (run : Run (initial loader) past moment) : moment.StackSound := by
  induction run with
  | start => exact initially
  | next run follows inductionHypothesis =>
      refine inductionHypothesis.of_transition ?_ (run.transition follows)
      rw [run.fileSystem_eq]
      exact canonical

/-- In a tree every moment of every run has a sound call stack, so a load that
fails finds its own record in the cache. Whenever the loader rests, whatever
it answered and whichever operations led there, all the cached records are
complete. -/
theorem stack_matches_cache
    {tree : FileTree}
    (built : tree.Built)
    (config : ResolverConfig)
    (bodies : List (String × Script)) :
    (∀ past moment,
      Run (initial (.new ⟨tree.toFileSystem, config⟩ bodies)) past moment →
      moment.StackSound ∧
        (∀ id filename error,
          moment.phase = .closing id filename (.error error) →
          moment.loader.cache[filename.components]? = some id) ∧
        ∀ answer, moment.phase = .resting answer →
          ∀ record ∈ moment.loader.cachedRecords, record.loaded = true) ∧
      ∀ loader,
        Loader.Reaches (.new ⟨tree.toFileSystem, config⟩ bodies) loader →
        ∀ record ∈ loader.cachedRecords, record.loaded = true := by
  have sound : ∀ past moment,
      Run (initial (.new ⟨tree.toFileSystem, config⟩ bodies)) past moment →
        moment.StackSound :=
    fun past moment run =>
      run.stackSound (.initial ⟨tree.toFileSystem, config⟩ bodies)
        built.canonical
  constructor
  · intro past moment run
    refine ⟨sound past moment run, ?_, ?_⟩
    · intro id filename error phase
      exact (sound past moment run).cached _ (mem_openLoads_of_closing phase)
    · intro answer rests
      refine (sound past moment run).loaded_of_openLoads_eq_nil ?_
      simp [openLoads, rests, run.waiting_eq_nil rests, Phase.openLoad?]
  · intro loader reaches
    obtain ⟨past, answer, run⟩ := reaches.run
    exact (sound _ _ run).loaded_of_openLoads_eq_nil rfl

/-- Two modules that ask for each other, and one that fails between them. -/
def cyclicTree : FileTree :=
  ((FileTree.empty.insertFile (.ofString "/p/a.js") "a").insertFile
    (.ofString "/p/b.js") "b").insertFile (.ofString "/p/c.js") "c"

def cyclicBodies : List (String × Script) :=
  [("a", [.require "./b.js" "b"]),
    ("b", [.tryRequire "./c.js" "c", .require "./a.js" "a"]),
    ("c", [.require "./a.js" "a", .throwText "no"])]

/-- At one moment all three loads are open, and in the end the two that did not
fail are loaded. -/
theorem stack_matches_cache_cyclicTree :
    (∃ past moment,
      Run (initial (.new ⟨cyclicTree.toFileSystem, .standard⟩ cyclicBodies))
          past moment ∧
        moment.openLoads.map (·.filename) =
            [.ofString "/p/c.js", .ofString "/p/b.js", .ofString "/p/a.js"] ∧
          ∀ id, moment.loader.IsUnfinished id ↔
            id ∈ moment.openLoads.map OpenLoad.record) ∧
      ∃ answer loader,
        (Loader.new ⟨cyclicTree.toFileSystem, .standard⟩ cyclicBodies).perform
            (.requireFrom (.ofString "/p") "./a" none) = some (answer, loader) ∧
          loader.cachedRecords.map (·.filename) =
              [.ofString "/p/a.js", .ofString "/p/b.js"] ∧
            ∀ record ∈ loader.cachedRecords, record.loaded = true := by
  have built : cyclicTree.Built :=
    .insertFile _ _ (.insertFile _ _ (.insertFile _ _ .empty))
  obtain ⟨sound, loaded⟩ := stack_matches_cache built .standard cyclicBodies
  constructor
  · let first : Moment := ⟨.requesting (.ofString "/p") "./a" none, [], none,
      .new ⟨cyclicTree.toFileSystem, .standard⟩ cyclicBodies⟩
    have reached : (first.after 11).map
          (fun moment => moment.openLoads.map (·.filename)) =
        some
          [.ofString "/p/c.js", .ofString "/p/b.js", .ofString "/p/a.js"] := by
      decide +kernel
    obtain ⟨moment, reached, files⟩ := Option.map_eq_some_iff.mp reached
    have begins : Run (initial first.loader) [initial first.loader] first :=
      .next .start
        (.operation .done (.requireFrom (.ofString "/p") "./a" none) rfl rfl)
    obtain ⟨past, run⟩ := begins.ofAfter reached
    exact ⟨past, moment, run, files, (sound past moment run).1.unfinished⟩
  · have performed :
        ((Loader.new ⟨cyclicTree.toFileSystem, .standard⟩ cyclicBodies).perform
            (.requireFrom (.ofString "/p") "./a" none)).map
          (fun outcome => outcome.2.cachedRecords.map (·.filename)) =
          some [.ofString "/p/a.js", .ofString "/p/b.js"] := by
      decide +kernel
    obtain ⟨⟨answer, loader⟩, performed, files⟩ :=
      Option.map_eq_some_iff.mp performed
    exact ⟨answer, loader, performed, files,
      loaded loader (.perform .start performed)⟩

end Moment
end CommonJs
