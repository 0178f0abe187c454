import CommonJs.Module.Loader

/-!
# Outcomes of actions

An action of a loader, or of a body, may fail and may have no outcome at all.
Where it has one, the lemmas below say which outcomes its parts had.
-/

namespace CommonJs

variable {ε α β : Type}

/-- An action that is followed by another one. -/
theorem run_bind
    (action : ExceptT ε (StateT Loader Option) α)
    (next : α → ExceptT ε (StateT Loader Option) β)
    (loader : Loader) :
    (action >>= next).run loader =
      (action.run loader).bind fun outcome =>
        match outcome.1 with
        | .ok value => (next value).run outcome.2
        | .error error => some (.error error, outcome.2) := by
  change (action.run loader).bind
    (fun first => ExceptT.bindCont next first.1 first.2) = _
  cases action.run loader with
  | none => rfl
  | some outcome =>
      obtain ⟨first, between⟩ := outcome
      cases first with
      | ok value => rfl
      | error error => rfl

/-- An action that is followed by another one ends with its own error, or the
other one ends it. -/
theorem run_bind_eq_some
    {action : ExceptT ε (StateT Loader Option) α}
    {next : α → ExceptT ε (StateT Loader Option) β}
    {before after : Loader}
    {result : Except ε β}
    (outcome : (action >>= next).run before = some (result, after)) :
    (∃ error, action.run before = some (.error error, after) ∧
        result = .error error) ∨
      ∃ value between,
        action.run before = some (.ok value, between) ∧
          (next value).run between = some (result, after) := by
  rw [run_bind] at outcome
  obtain ⟨⟨first, between⟩, ran, continued⟩ :=
    Option.bind_eq_some_iff.mp outcome
  cases first with
  | ok value => exact Or.inr ⟨value, between, ran, continued⟩
  | error error =>
      cases continued
      exact Or.inl ⟨error, ran, rfl⟩

theorem run_get_bind
    (next : Loader → ExceptT ε (StateT Loader Option) β)
    (loader : Loader) :
    (get >>= next).run loader = (next loader).run loader := rfl

/-- An action that a body does not catch. -/
theorem run_uncaught
    (action : Loading α)
    (loader : Loader) :
    action.uncaught.run loader =
      (action.run loader).map fun outcome =>
        (outcome.1.mapError .uncaught, outcome.2) := by
  change (action.run loader).bind _ = _
  cases action.run loader with
  | none => rfl
  | some outcome =>
      obtain ⟨first, after⟩ := outcome
      cases first with
      | ok value => rfl
      | error error => rfl

/-- The outcome of an action that a body does not catch. -/
theorem run_uncaught_eq_some
    {action : Loading α}
    {before after : Loader}
    {result : Except BodyError α}
    (outcome : action.uncaught.run before = some (result, after)) :
    ∃ first, action.run before = some (first, after) ∧
      result = first.mapError .uncaught := by
  rw [run_uncaught] at outcome
  obtain ⟨⟨first, between⟩, ran, same⟩ := Option.map_eq_some_iff.mp outcome
  cases same
  exact ⟨first, ran, rfl⟩

/-- An attempt never fails. -/
theorem run_attempt
    {δ : Type}
    (action : ExceptT δ (StateT Loader Option) α)
    (loader : Loader) :
    (ExceptT.lift action.run : ExceptT ε (StateT Loader Option) _).run loader =
      (action.run loader).map fun outcome => (.ok outcome.1, outcome.2) := by
  change (action.run loader).bind _ = _
  cases action.run loader <;> rfl

/-- The value of an attempt is the outcome of the action. -/
theorem run_attempt_eq_some
    {δ : Type}
    {action : ExceptT δ (StateT Loader Option) α}
    {before after : Loader}
    {result : Except ε (Except δ α)}
    (outcome :
      (ExceptT.lift action.run :
          ExceptT ε (StateT Loader Option) _).run before =
        some (result, after)) :
    ∃ first, action.run before = some (first, after) ∧ result = .ok first := by
  rw [run_attempt] at outcome
  obtain ⟨⟨first, between⟩, ran, same⟩ := Option.map_eq_some_iff.mp outcome
  cases same
  exact ⟨first, ran, rfl⟩

/-! ## Actions that have an outcome -/

/-- Two actions return one after the other if the second returns whatever comes
out of the first. -/
theorem isSome_run_bind
    {action : ExceptT ε (StateT Loader Option) α}
    {next : α → ExceptT ε (StateT Loader Option) β}
    {loader : Loader}
    (first : (action.run loader).isSome = true)
    (second : ∀ value between,
      action.run loader = some (.ok value, between) →
        ((next value).run between).isSome = true) :
    ((action >>= next).run loader).isSome = true := by
  obtain ⟨⟨result, between⟩, ran⟩ := Option.isSome_iff_exists.mp first
  rw [run_bind, ran, Option.bind_some]
  cases result with
  | ok value => exact second value between ran
  | error error => rfl

theorem isSome_run_uncaught
    {action : Loading α}
    {loader : Loader}
    (first : (action.run loader).isSome = true) :
    (action.uncaught.run loader).isSome = true := by
  rw [run_uncaught, Option.isSome_map]
  exact first

theorem isSome_run_attempt
    {δ : Type}
    {action : ExceptT δ (StateT Loader Option) α}
    {loader : Loader}
    (first : (action.run loader).isSome = true) :
    ((ExceptT.lift action.run : ExceptT ε (StateT Loader Option) _).run
      loader).isSome =
      true := by
  rw [run_attempt, Option.isSome_map]
  exact first

/-! ## Resolution and new objects -/

/-- To resolve a specifier changes what is remembered, and never fails. -/
theorem run_resolve
    (context : Path)
    (specifier : String)
    (origin : Option Path)
    (loader : Loader) :
    (Loading.resolve context specifier origin).run loader =
      (loader.resolver.resolve loader.memo context specifier origin).map
        fun found => (.ok found.1, { loader with memo := found.2 }) := by
  unfold Loading.resolve
  rw [run_get_bind]
  cases loader.resolver.resolve loader.memo context specifier origin <;> rfl

/-- A request is answered by the resolver and leaves its memo. -/
theorem run_resolve_eq_some
    {context : Path}
    {specifier : String}
    {origin : Option Path}
    {before after : Loader}
    {result : Except LoadError ResolveResult}
    (outcome :
      (Loading.resolve context specifier origin).run before =
        some (result, after)) :
    ∃ found memo,
      before.resolver.resolve before.memo context specifier origin =
          some (found, memo) ∧
        result = .ok found ∧ after = { before with memo } := by
  rw [run_resolve] at outcome
  obtain ⟨⟨found, memo⟩, resolved, same⟩ := Option.map_eq_some_iff.mp outcome
  cases same
  exact ⟨found, memo, resolved, rfl, rfl⟩

/-- A new object is made without asking anyone. -/
theorem run_newObject (loader : Loader) :
    Loading.newObject.run loader =
      some (.ok loader.newObject.1, loader.newObject.2) := rfl

/-- The file that a resolution leads to, none for a request for nothing, or the
failure to find one. -/
def ResolveResult.located
    (result : ResolveResult)
    (context : Path)
    (specifier : String) : Except LoadError (Option Path) :=
  match result.resolution with
  | .path path => .ok (some path)
  | .stub => .ok none
  | .unresolved _ => .error (.notFound specifier context result.tried)

/-- To look for a file is to resolve its specifier. -/
theorem run_locate
    (context : Path)
    (specifier : String)
    (origin : Option Path)
    (loader : Loader) :
    (Loading.locate context specifier origin).run loader =
      (loader.resolver.resolve loader.memo context specifier origin).map
        fun found =>
          (found.1.located context specifier,
            { loader with memo := found.2 }) := by
  rw [Loading.locate, run_bind, run_resolve]
  cases loader.resolver.resolve loader.memo context specifier origin with
  | none => rfl
  | some found =>
      rw [Option.map_some, Option.map_some, Option.bind_some]
      unfold ResolveResult.located
      dsimp only
      cases found.1.resolution <;> rfl

/-- A place is found by one request, which leaves its memo. -/
theorem run_locate_eq_some
    {context : Path}
    {specifier : String}
    {origin : Option Path}
    {before after : Loader}
    {result : Except LoadError (Option Path)}
    (outcome :
      (Loading.locate context specifier origin).run before =
        some (result, after)) :
    ∃ found memo,
      before.resolver.resolve before.memo context specifier origin =
          some (found, memo) ∧
        result = found.located context specifier ∧
          after = { before with memo } := by
  rw [run_locate] at outcome
  obtain ⟨⟨found, memo⟩, resolved, same⟩ := Option.map_eq_some_iff.mp outcome
  cases same
  exact ⟨found, memo, resolved, rfl, rfl⟩

end CommonJs
