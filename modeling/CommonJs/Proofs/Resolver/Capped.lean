import CommonJs.Proofs.Resolver.Simulation

/-!
# The limit on tried places

A trail with a limit lists the first places of a trail without one. No search
looks at its trail, so a resolver runs in step with itself without a limit,
through replacements and all that is tried after one has failed.
-/

namespace CommonJs

/-- A trail that lists the first `count` of the places of a trail without a
limit. -/
structure Trail.Caps (count : Nat) (trail whole : Trail) : Prop where
  /-- The trail has a limit. -/
  limit : trail.limit = some count
  /-- The whole trail has none. -/
  unlimited : whole.limit = none
  /-- The first places of the whole trail are kept. -/
  places : trail.places = whole.places.take count

namespace Trail

theorem caps_start
    (count : Nat) : Caps count (start (some count)) (start none) :=
  ⟨rfl, rfl, List.take_nil.symm⟩

/-- A place comes into both trails, or the limit is reached. -/
theorem Caps.add
    {count : Nat}
    {trail whole : Trail}
    (caps : Caps count trail whole)
    (place : Path) : Caps count (trail.add place) (whole.add place) := by
  obtain ⟨limited, unlimited, places⟩ := caps
  have longer : whole.add place =
      { whole with places := whole.places ++ [place] } := by
    unfold Trail.add
    rw [unlimited]
  rw [longer]
  unfold Trail.add
  rw [limited]
  dsimp only
  split_ifs with room
  · have fits : whole.places.length < count := by
      rw [places, List.length_take] at room
      omega
    refine ⟨rfl, unlimited, ?_⟩
    dsimp only
    rw [places, List.take_of_length_le fits.le,
      List.take_of_length_le (by rw [List.length_append]; exact fits)]
  · have full : count ≤ whole.places.length := by
      rw [places, List.length_take] at room
      omega
    refine ⟨limited, unlimited, ?_⟩
    dsimp only
    rw [places, List.take_append_of_le_length full]

end Trail

namespace Resolver

open Search (InStep)

/-! ## A resolver next to itself -/

theorem optionRel_sameEntry_refl
    (entry : Option (PackageDescriptor × BrowserTarget)) :
    Option.Rel (SameEntry Eq) entry entry := by
  cases entry with
  | none => exact .none
  | some _ => exact .some ⟨rfl, rfl⟩

section Self

variable {resolver : Resolver}

/-- One package has one set of entries. -/
theorem sameScope_of_eq
    {scope other : Option PackageDescriptor}
    (equal : scope = other) : SameScope Eq resolver resolver scope other where
  file same := by
    rw [equal, same]
    exact optionRel_sameEntry_refl _
  module _ := by
    rw [equal]
    exact optionRel_sameEntry_refl _

theorem sameOwn_of_eq
    {own other : Option PackageDescriptor}
    (equal : own = other) : SameOwn Eq Eq resolver resolver own other where
  main := by rw [equal]
  replacement := by
    rw [equal]
    exact optionRel_sameEntry_refl _
  innerScope same := by rw [equal, same]

end Self

/-! ## Searches with and without a limit -/

/-- States with one memo, whose trails differ in the limit alone. -/
structure Capped (count : Nat) (state whole : SearchState) : Prop where
  /-- The memos are equal. -/
  memo : state.memo = whole.memo
  /-- One trail is the beginning of the other. -/
  trail : Trail.Caps count state.trail whole.trail

section Capped

variable {resolver : Resolver} {count : Nat}

/-- To try a place is the only thing that looks at the limit. -/
theorem Capped.tryPlace (place : Path) :
    InStep (Capped count) (fun _ _ => True) (Resolver.tryPlace place)
      (Resolver.tryPlace place) :=
  fun _ _ capped => .some ⟨trivial, capped.memo, capped.trail.add place⟩

/-- Where a search asks the memo alone, it gets one answer in both states. -/
theorem Capped.inStep_ask
    {α : Type}
    {search : Search α}
    (ask : DescriptorMemo → α × DescriptorMemo)
    (asks : ∀ state : SearchState,
      search state =
        some ((ask state.memo).1, { state with memo := (ask state.memo).2 })) :
    InStep (Capped count) Eq search search := by
  intro state whole capped
  rw [asks, asks, capped.memo]
  exact .some ⟨rfl, rfl, capped.trail⟩

/-- Descriptors come from the memo, which is one. -/
theorem Capped.describe (directory : Path) :
    InStep (Capped count) Eq (resolver.describe directory)
      (resolver.describe directory) :=
  inStep_ask (resolver.descriptorIn · directory) fun _ => rfl

theorem Capped.searchScope (context : Path) (origin : Option Path) :
    InStep (Capped count) Eq (resolver.searchScope context origin)
      (resolver.searchScope context origin) :=
  inStep_ask (resolver.scopeOf · context origin) fun _ => rfl

/-- A resolver does the same with a limit and without. -/
theorem mirrors_capped :
    Mirrors resolver resolver Eq Eq (Capped count) where
  paths := Path.respected_eq
  noScope := rfl
  scope equal := sameScope_of_eq equal
  extensions := rfl
  packageRoots := rfl
  isFile equal := by rw [equal]
  isDirectory equal := by rw [equal]
  canonicalize equal := by rw [equal]
  tryPlace equal := equal ▸ Capped.tryPlace _
  describe equal := by
    subst equal
    exact fun _ _ capped =>
      optionRel_mono (Capped.describe _ _ _ capped) fun _ _ both =>
        ⟨sameOwn_of_eq both.1, both.2⟩
  scopeInside equal := by
    subst equal
    unfold Resolver.scopeInside
    split
    · exact Capped.describe _
    · exact InStep.pure rfl

/-- A request with a limit has the resolution of the request without one, and
lists the first of the places. -/
theorem resolveWithin_eq_map_take
    (depth : Nat)
    (memo : DescriptorMemo)
    (context : Path)
    (specifier : String)
    (origin : Option Path) :
    resolver.resolveWithin depth (some count) memo context specifier origin =
      (resolver.resolveWithin depth none memo context specifier origin).map
        fun whole =>
          (⟨whole.1.resolution, whole.1.tried.take count⟩, whole.2) := by
  have start : Capped count ⟨memo, .start (some count)⟩ ⟨memo, .start none⟩ :=
    ⟨rfl, Trail.caps_start count⟩
  have contexts :
      resolver.fileSystem.canonicalize context =
        resolver.fileSystem.canonicalize context := rfl
  have ran := mirrors_capped.resolveWithin depth specifier contexts start
    (Capped.searchScope _ origin)
  generalize resolver.resolveWithin depth (some count) memo context specifier
    origin = capped at ran ⊢
  generalize resolver.resolveWithin depth none memo context specifier origin =
    whole at ran ⊢
  cases ran with
  | none => rfl
  | @some outcome wholeOutcome both =>
      obtain ⟨resolution, trail, wholeTrail, tried, wholeTried, states⟩ := both
      obtain ⟨⟨_, _⟩, _⟩ := outcome
      obtain ⟨⟨_, _⟩, _⟩ := wholeOutcome
      obtain rfl := Resolution.eq_of_alike resolution
      obtain rfl := states.memo
      dsimp only at tried wholeTried
      rw [Option.map_some, tried, wholeTried, states.trail.places]

/-- The limit on tried places changes no resolution: without it, a request
has the same resolution, or none either, and leaves the same memo; with it,
the first twenty of the places are listed. -/
theorem resolve_eq_map_take_tried
    (resolver : Resolver)
    (memo : DescriptorMemo)
    (context : Path)
    (specifier : String)
    (origin : Option Path) :
    resolver.resolve memo context specifier origin =
      (resolver.resolveWithin resolver.nestingLimit none memo context specifier
          origin).map
        fun whole => (⟨whole.1.resolution, whole.1.tried.take 20⟩, whole.2) :=
  resolveWithin_eq_map_take _ memo context specifier origin

end Capped

end Resolver
end CommonJs
