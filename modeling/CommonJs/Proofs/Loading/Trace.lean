import CommonJs.Proofs.Loading.Stack

/-!
# What an operation leaves in the cache

The moments of one operation form a trace. While it is under way, a record is
cached for one of three reasons: it was cached before the operation began, its
load is open, or its load was completed in the meantime. No load is open when
the operation is over, so the cache has grown by the records of the completed
loads and has not changed otherwise.
-/

namespace CommonJs
namespace Moment

/-- The moments of one operation that has come to a moment, the latest
first. -/
inductive Trace (first : Moment) : List Moment → Moment → Prop
  | start : Trace first [] first
  | step {past : List Moment} {moment next : Moment} :
      Trace first past moment → moment.step = some next →
        Trace first (moment :: past) next

namespace Trace

variable {start first moment : Moment} {past before : List Moment}

/-- Steps are a trace of the moments on the way. -/
theorem ofSteps
    (steps : Steps first moment) : ∃ past, Trace first past moment := by
  induction steps with
  | refl => exact ⟨[], .start⟩
  | tail _ stepped inductionHypothesis =>
      obtain ⟨past, trace⟩ := inductionHypothesis
      exact ⟨_, trace.step stepped⟩

/-- The moments before a moment of a trace are a trace of their own. -/
theorem of_mem
    (trace : Trace first past moment)
    {between : Moment}
    (isPast : between ∈ past) :
    ∃ earlier, Trace first earlier between ∧ earlier ⊆ past := by
  induction trace with
  | start => cases isPast
  | step trace _ inductionHypothesis =>
      rcases List.mem_cons.mp isPast with rfl | isPast
      · exact ⟨_, trace, List.subset_cons_self _ _⟩
      · obtain ⟨earlier, prior, included⟩ := inductionHypothesis isPast
        exact ⟨earlier, prior, List.subset_cons_of_subset _ included⟩

/-- The trace of an operation continues the run that led to its beginning. -/
theorem run
    (begins : Run start before first)
    (trace : Trace first past moment) : Run start (past ++ before) moment := by
  induction trace with
  | start => exact begins
  | step _ stepped inductionHypothesis =>
      exact inductionHypothesis.next (.step stepped)

end Trace

/-- An operation that has an answer has a trace, which comes to rest with
it. -/
theorem trace_of_perform
    {loader after : Loader}
    {operation : Operation}
    {answer : Answer}
    (performed : loader.perform operation = some (answer, after)) :
    ∃ first past,
      begin loader operation = some first ∧
        Trace first past ⟨.resting answer, [], none, after⟩ := by
  obtain ⟨first, begun, steps⟩ := steps_perform performed
  obtain ⟨past, trace⟩ := Trace.ofSteps steps
  exact ⟨first, past, begun, trace⟩

/-! ## Ends of loads -/

/-- A load was completed whose record is cached under a key. -/
def Completed (past : List Moment) (key : List Component) (id : Nat) : Prop :=
  ∃ moment ∈ past, ∃ filename : Path,
    moment.phase = .closing id filename (.ok ()) ∧ filename.components = key

variable {moment next : Moment} {past : List Moment} {key : List Component}

/-- A load has been completed now or earlier. -/
theorem completed_cons {id : Nat} :
    Completed (moment :: past) key id ↔
      (∃ filename : Path,
        moment.phase = .closing id filename (.ok ()) ∧
          filename.components = key) ∨
        Completed past key id := by
  simp [Completed]

/-- Where the open loads stay as they are, no load ends. -/
theorem phase_ne_closing_of_openLoads
    (stepped : moment.step = some next)
    (openLoads : next.openLoads = moment.openLoads)
    (id : Nat)
    (filename : Path)
    (outcome : Except LoadError Unit) :
    moment.phase ≠ .closing id filename outcome := by
  intro phase
  have closes :
      moment.become (moment.loader.close id filename outcome) = next := by
    simpa [step, phase] using stepped
  rw [← closes, openLoads_become_close, openLoads_of_closing phase] at openLoads
  exact absurd (congrArg List.length openLoads) (by simp)

/-! ## Why a record is cached -/

/-- What a loader holds in the course of an operation, compared with what it
held before. -/
structure Accounted
    (before : Loader)
    (past : List Moment)
    (moment : Moment) : Prop where
  /-- A record is cached from before, or its load is open or completed. -/
  cached_iff : ∀ key id,
    moment.loader.cache[key]? = some id ↔
      before.cache[key]? = some id ∨
        (∃ load ∈ moment.openLoads, load.record = id ∧
            load.filename.components = key) ∨
          Completed past key id
  /-- A load is opened for a file that is not cached. -/
  apart : ∀ load ∈ moment.openLoads,
    before.cache[load.filename.components]? = none ∧
      ∀ id, ¬ Completed past load.filename.components id
  /-- An open load was opened by this operation. -/
  opened : ∀ load ∈ moment.openLoads,
    ∃ opening ∈ moment :: past,
      opening.phase = .opened load.record load.filename
  /-- A load that has ended was opened by this operation as well. -/
  began : ∀ closed ∈ past, ∀ id filename outcome,
    closed.phase = .closing id filename outcome →
      ∃ opening ∈ past, opening.phase = .opened id filename

namespace Accounted

variable {before : Loader}

/-- Before an operation begins, nothing is open and nothing was completed. -/
theorem initial
    (noLoads : moment.openLoads = [])
    (sameCache : moment.loader.cache = before.cache) :
    Accounted before [] moment where
  cached_iff key id := by simp [noLoads, sameCache, Completed]
  apart load isOpen := by simp [noLoads] at isOpen
  opened load isOpen := by simp [noLoads] at isOpen
  began closed isPast := by cases isPast

/-- The load that ends was opened before. -/
theorem began_cons
    (accounted : Accounted before past moment) :
    ∀ closed ∈ moment :: past, ∀ id filename outcome,
      closed.phase = .closing id filename outcome →
        ∃ opening ∈ moment :: past, opening.phase = .opened id filename := by
  intro closed isPast id filename outcome phase
  rcases List.mem_cons.mp isPast with rfl | isPast
  · exact accounted.opened _ (mem_openLoads_of_closing phase)
  · obtain ⟨opening, wasOpened, isOpening⟩ :=
      accounted.began closed isPast id filename outcome phase
    exact ⟨opening, List.mem_cons_of_mem _ wasOpened, isOpening⟩

/-- Where loads are kept, the account stays. -/
theorem of_keepsLoads
    (accounted : Accounted before past moment)
    (stepped : moment.step = some next)
    (openLoads : next.openLoads = moment.openLoads)
    (sameCache : next.loader.cache = moment.loader.cache) :
    Accounted before (moment :: past) next := by
  have completed : ∀ key id, Completed (moment :: past) key id ↔
      Completed past key id := by
    intro key id
    rw [completed_cons]
    refine or_iff_right ?_
    rintro ⟨filename, phase, _⟩
    exact phase_ne_closing_of_openLoads stepped openLoads id filename
      (.ok ()) phase
  refine ⟨?_, ?_, ?_, accounted.began_cons⟩
  · intro key id
    rw [sameCache, openLoads, completed]
    exact accounted.cached_iff key id
  · intro load isOpen
    simp only [completed]
    exact accounted.apart load (openLoads ▸ isOpen)
  · intro load isOpen
    obtain ⟨opening, wasOpened, isOpening⟩ :=
      accounted.opened load (openLoads ▸ isOpen)
    exact ⟨opening, List.mem_cons_of_mem _ wasOpened, isOpening⟩

/-- A load that begins is of a file that is cached for no reason. -/
theorem opens
    (accounted : Accounted before past moment)
    {path : Path}
    (phase : moment.phase = .loading path)
    (fresh : moment.loader.cached? path = none) :
    Accounted before (moment :: past)
      (moment.become (moment.loader.look path)) := by
  let filename := moment.loader.resolver.fileSystem.canonicalize path
  let load : OpenLoad := ⟨moment.loader.records.size, filename⟩
  have uncached : moment.loader.cache[filename.components]? = none := fresh
  have openLoads :
      (moment.become (moment.loader.look path)).openLoads =
        load :: moment.openLoads :=
    openLoads_become_look phase fresh
  have completed : ∀ key id, Completed (moment :: past) key id ↔
      Completed past key id := by
    intro key id
    simp [completed_cons, phase]
  -- Whatever the reason, a record cached under the key now was cached before.
  have noReason : ∀ id, ¬ (before.cache[filename.components]? = some id ∨
      (∃ load ∈ moment.openLoads,
        load.record = id ∧ load.filename.components = filename.components) ∨
        Completed past filename.components id) := by
    intro id reason
    rw [← accounted.cached_iff, uncached] at reason
    cases reason
  have cache : ∀ key,
        (moment.become (moment.loader.look path)).loader.cache[key]? =
      if filename.components = key then some load.record
        else moment.loader.cache[key]? := by
    intro key
    rw [become, Loader.look_eq_of_fresh fresh]
    exact moment.loader.cache_openRecord filename key
  refine ⟨?_, ?_, ?_, accounted.began_cons⟩
  · intro key id
    rw [cache, openLoads, completed]
    split
    next isKey =>
      subst isKey
      have others := noReason id
      simp only [not_or] at others
      simp [others, load]
    next otherKey =>
      rw [accounted.cached_iff]
      simp [load, otherKey]
  · rw [openLoads]
    intro other isOpen
    simp only [completed]
    rcases List.mem_cons.mp isOpen with rfl | isOpen
    · refine ⟨?_, fun id wasCompleted =>
        noReason id (Or.inr (Or.inr wasCompleted))⟩
      apply Option.eq_none_iff_forall_ne_some.mpr
      intro id wasCached
      exact noReason id (Or.inl wasCached)
    · exact accounted.apart other isOpen
  · rw [openLoads]
    intro other isOpen
    rcases List.mem_cons.mp isOpen with rfl | isOpen
    · refine ⟨_, List.mem_cons_self, ?_⟩
      rw [become, Loader.look_eq_of_fresh fresh]
    · obtain ⟨opening, wasOpened, isOpening⟩ := accounted.opened other isOpen
      exact ⟨opening, List.mem_cons_of_mem _ wasOpened, isOpening⟩

/-- A load that ends leaves a completed record or none. -/
theorem closes
    (accounted : Accounted before past moment)
    (sound : moment.StackSound)
    {id : Nat}
    {filename : Path}
    {outcome : Except LoadError Unit}
    (phase : moment.phase = .closing id filename outcome) :
    Accounted before (moment :: past)
      (moment.become (moment.loader.close id filename outcome)) := by
  let others := moment.waiting.map Waiting.openLoad
  have openLoads : moment.openLoads = ⟨id, filename⟩ :: others :=
    openLoads_of_closing phase
  have otherFile :
      ∀ load ∈ others, filename.components ≠ load.filename.components := by
    have distinct := sound.distinct
    rw [openLoads, List.map_cons, List.nodup_cons] at distinct
    intro load isOpen same
    exact distinct.1 (List.mem_map.mpr ⟨load, isOpen, same.symm⟩)
  have own := sound.cached _ (mem_openLoads_of_closing phase)
  have notBefore := (accounted.apart _ (mem_openLoads_of_closing phase)).1
  have notCompleted := (accounted.apart _ (mem_openLoads_of_closing phase)).2
  have reasons : ∀ key other, moment.loader.cache[key]? = some other ↔
      before.cache[key]? = some other ∨
        ((id = other ∧ filename.components = key) ∨
          ∃ load ∈ others, load.record = other ∧
            load.filename.components = key) ∨
          Completed past key other := by
    intro key other
    rw [accounted.cached_iff, openLoads]
    simp
  refine ⟨?_, ?_, ?_, accounted.began_cons⟩
  · intro key other
    rw [openLoads_become_close, completed_cons, phase]
    cases outcome with
    | ok _ =>
        -- The record stays cached, now because its load was completed.
        refine (reasons key other).trans ?_
        have isCompleted : (∃ file : Path, Phase.closing id filename (.ok ()) =
            .closing other file (.ok ()) ∧ file.components = key) ↔
              id = other ∧ filename.components = key := by
          simp [and_assoc]
        rw [isCompleted]
        simp only [or_assoc, or_left_comm, others]
    | error error =>
        have notCompleting : ¬ ∃ file : Path,
              Phase.closing id filename (.error error) =
            .closing other file (.ok ()) ∧ file.components = key := by
          simp
        change (moment.loader.dropRecord filename id).cache[key]? =
          some other ↔ _
        rw [Loader.cache_dropRecord own key, or_iff_right notCompleting]
        split
        next isKey =>
          subst isKey
          refine iff_of_false nofun ?_
          rintro (wasCached | ⟨load, isOpen, _, sameKey⟩ | completed)
          · cases notBefore.symm.trans wasCached
          · exact otherFile load isOpen sameKey.symm
          · exact notCompleted other completed
        next otherKey =>
          rw [reasons]
          simp [otherKey, others]
  · rw [openLoads_become_close]
    intro load isOpen
    have apart :=
      accounted.apart load (openLoads ▸ List.mem_cons_of_mem _ isOpen)
    refine ⟨apart.1, fun other completed => ?_⟩
    rcases completed_cons.mp completed with ⟨file, closing, sameKey⟩ | completed
    · cases phase.symm.trans closing
      exact otherFile load isOpen sameKey
    · exact apart.2 other completed
  · rw [openLoads_become_close]
    intro load isOpen
    obtain ⟨opening, wasOpened, isOpening⟩ :=
      accounted.opened load (openLoads ▸ List.mem_cons_of_mem _ isOpen)
    exact ⟨opening, List.mem_cons_of_mem _ wasOpened, isOpening⟩

/-- A load that completes comes into the account, one that fails does not. -/
theorem of_step
    (accounted : Accounted before past moment)
    (sound : moment.StackSound)
    (stepped : moment.step = some next) :
    Accounted before (moment :: past) next := by
  cases transition_of_step stepped with
  | keeps _ _ _ _ openLoads keeps =>
      exact accounted.of_keepsLoads stepped openLoads keeps.cache
  | opens path phase fresh becomes =>
      subst becomes
      exact accounted.opens phase fresh
  | starts _ _ _ _ _ openLoads keeps =>
      exact accounted.of_keepsLoads stepped openLoads keeps.cache
  | closes id filename outcome phase becomes =>
      subst becomes
      exact accounted.closes sound phase

end Accounted

/-- All through an operation each cached record has its reason. -/
theorem Trace.accounted
    {first : Moment}
    {before : Loader}
    (trace : Trace first past moment)
    (begins : Accounted before [] first)
    (sound : ∀ past moment, Trace first past moment → moment.StackSound) :
    Accounted before past moment := by
  induction trace with
  | start => exact begins
  | step trace stepped inductionHypothesis =>
      exact inductionHypothesis.of_step (sound _ _ trace) stepped

end Moment
end CommonJs
