import CommonJs.Proofs.Resolver.Requests
import Mathlib.Data.List.Forall2

/-!
# Searches in step

Two searches are in step when they start from states that correspond, and
either both give up or both end, with findings that correspond and in states
that do. What corresponds is up to those who compare: paths that are equal,
say, or paths that lead the same way.
-/

namespace CommonJs

/-- Optional values that correspond still do after both are changed. -/
theorem optionRel_map
    {α β γ δ : Type}
    {before : α → β → Prop}
    {after : γ → δ → Prop}
    {value : Option α}
    {other : Option β}
    {change : α → γ}
    {otherChange : β → δ}
    (related : Option.Rel before value other)
    (carries : ∀ value other, before value other →
      after (change value) (otherChange other)) :
    Option.Rel after (value.map change) (other.map otherChange) := by
  cases related with
  | none => exact .none
  | some both => exact .some (carries _ _ both)

theorem optionRel_mono
    {α β : Type}
    {strong weak : α → β → Prop}
    {value : Option α}
    {other : Option β}
    (related : Option.Rel strong value other)
    (implies : ∀ value other, strong value other → weak value other) :
    Option.Rel weak value other := by
  cases related with
  | none => exact .none
  | some both => exact .some (implies _ _ both)

theorem optionRel_eq_none_iff
    {α β : Type}
    {relation : α → β → Prop}
    (value : Option α)
    (other : Option β)
    (related : Option.Rel relation value other) :
    value = none ↔ other = none := by
  cases related with
  | none => simp
  | some _ => simp

/-! ## Paths that correspond -/

/-- A relation that is kept when paths are composed and taken apart the way
searches do it. -/
structure Path.Respected (same : Path → Path → Prop) : Prop where
  /-- The relation is kept when a name is added. -/
  child (name : String) {path other : Path} :
    same path other → same (path.child name) (other.child name)
  /-- It is kept when a path is normalized. -/
  normalize {path other : Path} : same path other →
    same path.normalize other.normalize
  /-- It is kept when an extension is appended. -/
  append (suffix : String) {path other : Path} :
    path.IsNormal → other.IsNormal → same path other →
      same (path.append suffix) (other.append suffix)
  /-- The directories above correspond one by one. -/
  ancestors {path other : Path} :
    same path other → List.Forall₂ same path.ancestors other.ancestors
  /-- The last names are equal. -/
  fileName {path other : Path} : same path other →
    path.fileName = other.fileName
  /-- Which paths are one does not depend on the side. -/
  sameWay {path other target otherTarget : Path} :
    same path other → same target otherTarget →
      (path.SameWay target ↔ other.SameWay otherTarget)

/-- Equality is kept by everything. -/
theorem Path.respected_eq : Path.Respected Eq where
  child name _ _ equal := congrArg (Path.child · name) equal
  normalize equal := congrArg Path.normalize equal
  append suffix _ _ _ _ equal := congrArg (Path.append · suffix) equal
  ancestors equal := by
    rw [equal]
    exact List.forall₂_same.mpr fun _ _ => rfl
  fileName equal := congrArg Path.fileName equal
  sameWay equal equalTarget := by rw [equal, equalTarget]

/-- Normal paths that lead the same way are equal, so they stay equal when
something is written after them. -/
theorem Path.respected_sameWay : Path.Respected Path.SameWay where
  child name _ _ same := same.join _
  normalize same := congrArg Path.components same.normalize_eq
  append suffix _ _ normal otherNormal same := by
    rw [normal.eq_of_sameWay otherNormal same]
    rfl
  ancestors same := same.ancestors
  fileName same := by
    unfold Path.SameWay at same
    rw [Path.fileName, Path.fileName, same]
  sameWay same sameTarget := by
    unfold Path.SameWay at same sameTarget ⊢
    rw [same, sameTarget]

/-- Findings that are the same file, or no file for the same reason. -/
inductive Finding.Alike (same : Path → Path → Prop) : Finding → Finding → Prop
  | file {path other : Path} : same path other →
      Alike same (.file path) (.file other)
  | stub : Alike same .stub .stub
  | missingReplacement : Alike same .missingReplacement .missingReplacement

/-- Resolutions to the same file, or to no file for the same reason. -/
inductive Resolution.Alike
    (same : Path → Path → Prop) : Resolution → Resolution → Prop
  | path {path other : Path} : same path other →
      Alike same (.path path) (.path other)
  | stub : Alike same .stub .stub
  | unresolved (reason : Reason) :
      Alike same (.unresolved reason) (.unresolved reason)

theorem Resolution.alike_ofFinding
    {same : Path → Path → Prop}
    {finding other : Option Finding}
    (alike : Option.Rel (Finding.Alike same) finding other)
    (miss : Reason) :
    Alike same (ofFinding miss finding) (ofFinding miss other) := by
  cases alike with
  | none => exact .unresolved miss
  | some both =>
      cases both with
      | file same => exact .path same
      | stub => exact .stub
      | missingReplacement => exact .unresolved _

/-- Resolutions with equal paths are equal. -/
theorem Resolution.eq_of_alike
    {resolution other : Resolution}
    (alike : Alike Eq resolution other) : resolution = other := by
  cases alike with
  | path same => rw [same]
  | stub => rfl
  | unresolved reason => rfl

/-- Trails with the same limit that list places that correspond one by one. -/
structure Trail.Alike
    (same : Path → Path → Prop)
    (trail other : Trail) : Prop where
  /-- The limits are equal. -/
  limit : trail.limit = other.limit
  /-- The places correspond. -/
  places : List.Forall₂ same trail.places other.places

theorem Trail.Alike.start
    (same : Path → Path → Prop)
    (limit : Option Nat) : Alike same (.start limit) (.start limit) :=
  ⟨rfl, .nil⟩

/-- Places that correspond may be added on both sides. -/
theorem Trail.Alike.add
    {same : Path → Path → Prop}
    {trail otherTrail : Trail}
    {place other : Path}
    (alike : Alike same trail otherTrail)
    (places : same place other) :
    Alike same (trail.add place) (otherTrail.add other) := by
  obtain ⟨sameLimit, listed⟩ := alike
  have longer : List.Forall₂ same (trail.places ++ [place])
      (otherTrail.places ++ [other]) :=
    List.rel_append listed (.cons places .nil)
  unfold Trail.add
  rw [← sameLimit, ← listed.length_eq]
  split
  · split
    · exact ⟨rfl, longer⟩
    · exact ⟨sameLimit, listed⟩
  · exact ⟨rfl, longer⟩

/-! ## Two searches -/

namespace Search

variable {α β γ δ : Type}

/-- From states that correspond, both searches end or neither does, and their
results correspond as well as the states that they leave. -/
def InStep
    (states : SearchState → SearchState → Prop)
    (results : α → β → Prop)
    (first : Search α)
    (second : Search β) : Prop :=
  ∀ before other, states before other →
    Option.Rel
      (fun outcome otherOutcome =>
        results outcome.1 otherOutcome.1 ∧ states outcome.2 otherOutcome.2)
      (first before) (second other)

/-- States that correspond to any do so regardless of which one it is. -/
def Rectangular (states : SearchState → SearchState → Prop) : Prop :=
  ∀ state other later otherLater, states state other → states later otherLater →
    states state otherLater

variable {states : SearchState → SearchState → Prop}

theorem InStep.pure
    {results : α → β → Prop}
    {value : α}
    {other : β}
    (correspond : results value other) :
    InStep states results (Pure.pure value) (Pure.pure other) :=
  fun _ _ related => .some ⟨correspond, related⟩

/-- Searches stay in step one after the other. -/
theorem InStep.bind
    {between : α → β → Prop}
    {results : γ → δ → Prop}
    {search : Search α}
    {other : Search β}
    {next : α → Search γ}
    {otherNext : β → Search δ}
    (first : InStep states between search other)
    (rest : ∀ value otherValue, between value otherValue →
      InStep states results (next value) (otherNext otherValue)) :
    InStep states results (search >>= next) (other >>= otherNext) := by
  intro before otherBefore related
  have outcomes := first before otherBefore related
  rw [bind_apply, bind_apply]
  generalize search before = outcome at outcomes
  generalize other otherBefore = otherOutcome at outcomes
  cases outcomes with
  | none => exact .none
  | some both => exact rest _ _ both.1 _ _ both.2

/-- To be in step does not depend on the side. -/
theorem InStep.swap
    {results : α → β → Prop}
    {first : Search α}
    {second : Search β}
    (inStep : InStep states results first second) :
    InStep (flip states) (flip results) second first := by
  intro before other related
  have outcomes := inStep other before related
  generalize first other = outcome at outcomes
  generalize second before = otherOutcome at outcomes
  cases outcomes with
  | none => exact .none
  | some both => exact .some both

/-- The results may be changed at the end. -/
theorem InStep.map
    {between : α → β → Prop}
    {results : γ → δ → Prop}
    {search : Search α}
    {other : Search β}
    {change : α → γ}
    {otherChange : β → δ}
    (first : InStep states between search other)
    (correspond : ∀ value otherValue, between value otherValue →
      results (change value) (otherChange otherValue)) :
    InStep states results (change <$> search) (otherChange <$> other) :=
  first.bind fun value otherValue both =>
    InStep.pure (correspond value otherValue both)

end Search

namespace Resolver

open Search (InStep)

/-! ## Searches for findings -/

/-- Searches in step that find the same. -/
abbrev FindsAlike
    (same : Path → Path → Prop)
    (states : SearchState → SearchState → Prop)
    (first second : Search (Option Finding)) : Prop :=
  InStep states (Option.Rel (Finding.Alike same)) first second

section Findings

variable {near : Path → Path → Prop}
variable {states : SearchState → SearchState → Prop}

theorem findsAlike_none : FindsAlike near states (pure none) (pure none) :=
  InStep.pure .none

/-- Searches that find alike one by one find alike in a row. -/
theorem findsAlike_firstFinding
    {searches others : List (Search (Option Finding))}
    (each : List.Forall₂ (FindsAlike near states) searches others) :
    FindsAlike near states (firstFinding searches) (firstFinding others) := by
  induction each with
  | nil => exact findsAlike_none
  | cons one _ inductionHypothesis =>
      refine one.bind fun result otherResult both => ?_
      cases both with
      | none => exact inductionHypothesis
      | some alike => exact InStep.pure (.some alike)

/-- A search in step with two others is in step with one after the other: where
the first of them finds nothing, neither does the second. -/
theorem inStep_again
    {results : Option Finding → Option Finding → Prop}
    (rectangular : Search.Rectangular states)
    (noneIff : ∀ finding other, results finding other →
      (finding = none ↔ other = none))
    {search other later : Search (Option Finding)}
    (once : InStep states results search other)
    (twice : InStep states results search later) :
    InStep states results search (firstFinding [other, later]) := by
  intro before otherBefore related
  have ran := once before otherBefore related
  rw [firstFinding, Search.bind_apply]
  generalize outcome : search before = result at ran
  generalize other otherBefore = otherResult at ran
  cases ran with
  | none => exact .none
  | @some both otherBoth correspond =>
      obtain ⟨finding, after⟩ := both
      obtain ⟨otherFinding, otherAfter⟩ := otherBoth
      cases otherFinding with
      | some found => exact .some correspond
      | none =>
          obtain rfl := (noneIff _ _ correspond.1).mpr rfl
          have ranAgain :=
            twice before otherAfter (rectangular _ _ _ _ related correspond.2)
          rw [outcome] at ranAgain
          rwa [Option.bind_some, firstFinding_singleton]

/-- A search may be repeated on the left where states do not tell how often it
was made. -/
theorem inStep_again_left
    {results : Option Finding → Option Finding → Prop}
    (rectangular : Search.Rectangular states)
    (noneIff : ∀ finding other, results finding other →
      (finding = none ↔ other = none))
    {search other later : Search (Option Finding)}
    (once : InStep states results other search)
    (twice : InStep states results later search) :
    InStep states results (firstFinding [other, later]) search :=
  have flipped : Search.Rectangular (flip states) :=
    fun _ _ _ _ one two => rectangular _ _ _ _ two one
  (inStep_again flipped
    (fun finding other both => (noneIff other finding both).symm) once.swap
    twice.swap).swap

end Findings

end Resolver
end CommonJs
