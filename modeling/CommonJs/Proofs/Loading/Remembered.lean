import CommonJs.Proofs.Loading.Transition
import CommonJs.Proofs.Resolver.Memo

/-!
# What a loader remembers of packages

While bodies run, the resolver of a loader stays the same, and what is
remembered changes by requests to it only. New settings begin with nothing
remembered. So at every moment the memo is one that the resolver of that
moment may have come by.
-/

namespace CommonJs

namespace Loader

/-- The resolver is the same as before, and the memo is what some requests to
it left. -/
structure Consults (before after : Loader) : Prop where
  /-- The resolver stays. -/
  resolver : after.resolver = before.resolver
  /-- Requests to it are all that change the memo. -/
  memo : Relation.ReflTransGen before.resolver.Asks before.memo after.memo

section Consults

variable {before after : Loader}

/-- Where neither is touched, nothing was asked. -/
theorem Consults.of_eq
    (resolver : after.resolver = before.resolver)
    (memo : after.memo = before.memo) : before.Consults after :=
  ⟨resolver, memo ▸ .refl⟩

/-- One request was made. -/
theorem Consults.of_resolve
    {context : Path}
    {specifier : String}
    {origin : Option Path}
    {result : ResolveResult}
    (resolver : after.resolver = before.resolver)
    (resolved : before.resolver.resolve before.memo context specifier origin =
      some (result, after.memo)) : before.Consults after :=
  ⟨resolver, .single (.resolve context specifier origin resolved)⟩

/-- What the memo remembers stays true. -/
theorem Consults.remembers
    (consults : before.Consults after)
    (remembers : before.resolver.Remembers before.memo) :
    after.resolver.Remembers after.memo := by
  rw [Resolver.remembers_iff_requests] at remembers ⊢
  rw [consults.resolver]
  exact remembers.trans consults.memo

end Consults

/-- A specifier of a script is resolved once. -/
theorem Requested.consults
    {loader : Loader}
    {context : Path}
    {specifier : String}
    {origin : Option Path}
    {after : Phase × Loader}
    (requested : loader.Requested context specifier origin after) :
    loader.Consults after.2 := by
  cases requested with
  | path resolved _ => exact .of_resolve rfl resolved
  | stub resolved _ => exact .of_resolve rfl resolved
  | unresolved resolved _ => exact .of_resolve rfl resolved

theorem consults_look (loader : Loader) (path : Path) :
    loader.Consults (loader.look path).2 := by
  unfold look
  split
  all_goals exact .of_eq rfl rfl

/-- The start of a body asks for nothing. -/
theorem Started.consults
    {loader : Loader}
    {id : Nat}
    {filename : Path}
    {after : Phase × Loader}
    (started : loader.Started id filename after) : loader.Consults after.2 := by
  cases started with
  | _ => exact .of_eq rfl rfl

/-- A body that goes on has asked for nothing yet. -/
theorem Resumed.consults
    {loader : Loader}
    {waiting : Waiting}
    {outcome : Except LoadError Value}
    {after : Phase × Loader}
    (resumed : loader.Resumed waiting outcome after) :
    loader.Consults after.2 := by
  cases resumed with
  | _ => exact .of_eq rfl rfl

theorem consults_conclude
    (loader : Loader)
    (name : Option String)
    (outcome : Except LoadError Value) :
    loader.Consults (loader.conclude name outcome).2 := by
  cases outcome with
  | ok value =>
      cases name with
      | none => exact .of_eq rfl rfl
      | some name => exact .of_eq rfl rfl
  | error error => exact .of_eq rfl rfl

end Loader

/-- Of the instructions only those that resolve ask for something. -/
theorem Effect.consults
    {frame : Frame}
    {exports : Value}
    {first : Instr}
    {before after : Loader}
    {result : Except BodyError Value}
    (effect : Effect frame exports before first result after) :
    before.Consults after := by
  cases effect with
  | resolve name resolved _ => exact .of_resolve rfl resolved
  | unresolved name resolved _ => exact .of_resolve rfl resolved
  | tryResolve resolved _ => exact .of_resolve rfl resolved
  | _ => exact .of_eq rfl rfl

namespace Moment

variable {moment next : Moment}

/-- A step makes one request at most. -/
theorem consults_of_step
    (stepped : moment.step = some next) :
    moment.loader.Consults next.loader := by
  cases stepped_of_step stepped with
  | request _ requested => exact requested.consults
  | look path phase => exact moment.loader.consults_look path
  | start _ started => exact started.consults
  | instr _ _ _ effect => exact effect.consults
  | close id filename outcome phase =>
      cases outcome with
      | ok _ => exact .of_eq rfl rfl
      | error error => exact .of_eq rfl rfl
  | resume _ _ resumed => exact resumed.consults
  | conclude outcome _ _ =>
      exact moment.loader.consults_conclude moment.name outcome
  | _ => exact .of_eq rfl rfl

/-- No number of steps changes the resolver. -/
theorem resolver_of_steps
    (steps : Steps moment next) :
    next.loader.resolver = moment.loader.resolver := by
  induction steps with
  | refl => rfl
  | tail _ stepped inductionHypothesis =>
      exact (consults_of_step stepped).resolver.trans inductionHypothesis

/-- An operation begins with what was remembered before, or with nothing where
it brings new settings. -/
theorem remembers_of_begin
    {loader : Loader}
    {operation : Operation}
    (begun : begin loader operation = some next)
    (remembers : loader.resolver.Remembers loader.memo) :
    next.loader.resolver.Remembers next.loader.memo := by
  cases begun_of_begin begun with
  | resolveFrom resolved => exact remembers.resolve _ _ _ resolved
  | withConfig config => exact .nothing
  | _ => exact remembers

/-- By induction on the run, the memo says what the manifests say. -/
theorem Run.remembers
    {resolver : Resolver}
    {bodies : List (String × Script)}
    {past : List Moment}
    (run : Run (initial (.new resolver bodies)) past moment) :
    moment.loader.resolver.Remembers moment.loader.memo := by
  induction run with
  | start => exact .nothing
  | next _ follows inductionHypothesis =>
      cases follows with
      | step stepped =>
          exact (consults_of_step stepped).remembers inductionHypothesis
      | operation _ _ _ begun =>
          exact remembers_of_begin begun inductionHypothesis

end Moment
end CommonJs
