import CommonJs.Proofs.Package.Entries
import CommonJs.Proofs.Resolver.Calls
import CommonJs.Proofs.Resolver.Forgetting
import Mathlib.Logic.Relation

/-!
# Chains of calls

Whatever a search finds, it finds in one call, to which a chain of calls leads:
each call tries the next one after others that find nothing, or hands over to
it as a replacement. All along a chain the memo stays honest, and a call knows
of no package but one that some manifest describes.
-/

namespace CommonJs
namespace Resolver

/-! ## Calls that find nothing -/

/-- How far a call is above the candidates that it tries in the end. -/
def Call.rank : Call → Nat
  | candidate .. => 0
  | candidates .. => 1
  | directory .. => 2
  | path .. => 3
  | package .. => 4
  | bare .. => 5
  | replacement .. => 6

/-- A call attempts only calls of lower rank. -/
theorem Attempts.rank_lt
    {resolver : Resolver}
    {state : SearchState}
    {call next : Call}
    (attempts : resolver.Attempts state call next) : next.rank < call.rank := by
  cases attempts <;> simp [Call.rank]

theorem exists_of_map_some
    {search : Search Finding}
    {state after : SearchState}
    {result : Option Finding}
    (found : (some <$> search) state = some (result, after)) :
    ∃ finding, result = some finding ∧
      search state = some (finding, after) := by
  obtain ⟨⟨finding, _⟩, ran, rest⟩ := Option.bind_eq_some_iff.mp found
  cases rest
  exact ⟨finding, rfl, ran⟩

section Nothing

variable {resolver : Resolver} {replace : Replace} {calls : List Call}
variable {state after : SearchState}

/-- If each call fails in the same way, so do all of them. -/
theorem firstFinding_none_of_each
    (other : Replace)
    (each : ∀ call ∈ calls, ∀ before after,
      resolver.perform replace call before = some (none, after) →
        resolver.perform other call before = some (none, after))
    (nothing : firstFinding (calls.map (resolver.perform replace)) state =
      some (none, after)) :
    firstFinding (calls.map (resolver.perform other)) state =
      some (none, after) := by
  induction calls generalizing state with
  | nil => exact nothing
  | cons call others inductionHypothesis =>
      rw [List.map_cons, firstFinding, Search.bind_apply] at nothing ⊢
      obtain ⟨⟨found, between⟩, ran, nothing⟩ :=
        Option.bind_eq_some_iff.mp nothing
      cases found with
      | some finding => cases nothing
      | none =>
          rw [each call List.mem_cons_self state between ran]
          exact inductionHypothesis
            (fun later present =>
              each later (List.mem_cons_of_mem _ present)) nothing

/-- A call that finds nothing has met no replacement, so it finds nothing
whatever way there is to carry replacements out. The induction is on the rank
of the call. -/
theorem perform_none
    (other : Replace)
    {call : Call}
    (nothing : resolver.perform replace call state = some (none, after)) :
    resolver.perform other call state = some (none, after) := by
  induction rank : call.rank using Nat.strong_induction_on
    generalizing call state after with
  | h rank inductionHypothesis =>
      rw [perform_eq_finish] at nothing ⊢
      rcases opens : resolver.opening call state with
        ⟨file | ⟨package, target, kind⟩ | calls, between⟩
      · rw [opens] at nothing
        exact nothing
      · rw [opens] at nothing
        obtain ⟨_, absurd, _⟩ := exists_of_map_some nothing
        cases absurd
      · rw [opens] at nothing
        refine firstFinding_none_of_each other
          (fun next present before after ran => ?_) nothing
        have lower := (attempts_of_opening opens present).rank_lt
        exact inductionHypothesis next.rank (by omega) ran rfl

/-- Calls that find nothing do not depend on how replacements are made. -/
theorem firstFinding_none
    (other : Replace)
    (nothing : firstFinding (calls.map (resolver.perform replace)) state =
      some (none, after)) :
    firstFinding (calls.map (resolver.perform other)) state =
      some (none, after) :=
  firstFinding_none_of_each other (fun _ _ _ _ => perform_none other) nothing

/-- What several calls find, one of them finds, and those before it find
nothing. -/
theorem exists_first_of_firstFinding
    {finding : Finding}
    (found :
      firstFinding (calls.map (resolver.perform replace)) state =
        some (some finding, after)) :
    ∃ earlier next later between,
      calls = earlier ++ next :: later ∧
        firstFinding (earlier.map (resolver.perform replace)) state =
            some (none, between) ∧
          resolver.perform replace next between =
            some (some finding, after) := by
  induction calls generalizing state with
  | nil => cases found
  | cons call others inductionHypothesis =>
      rw [List.map_cons, firstFinding, Search.bind_apply] at found
      obtain ⟨⟨result, middle⟩, ran, found⟩ := Option.bind_eq_some_iff.mp found
      cases result with
      | some _ =>
          cases found
          exact ⟨[], call, others, state, rfl, rfl, ran⟩
      | none =>
          obtain ⟨earlier, next, later, between, rfl, nothing, finds⟩ :=
            inductionHypothesis found
          refine ⟨call :: earlier, next, later, between, rfl, ?_, finds⟩
          rw [List.map_cons, firstFinding, Search.bind_apply, ran]
          exact nothing

/-- Where the first calls find nothing, the others go on from there. -/
theorem firstFinding_append_of_none
    {others : List Call}
    (nothing : firstFinding (calls.map (resolver.perform replace)) state =
      some (none, after)) :
    firstFinding ((calls ++ others).map (resolver.perform replace)) state =
      firstFinding (others.map (resolver.perform replace)) after := by
  induction calls generalizing state with
  | nil =>
      cases nothing
      rfl
  | cons call rest inductionHypothesis =>
      rw [List.map_cons, firstFinding, Search.bind_apply] at nothing
      obtain ⟨⟨result, middle⟩, ran, nothing⟩ :=
        Option.bind_eq_some_iff.mp nothing
      cases result with
      | some _ => cases nothing
      | none =>
          rw [List.cons_append, List.map_cons, firstFinding,
            Search.bind_apply, ran]
          exact inductionHypothesis nothing

end Nothing

/-! ## The call that a finding comes from -/

/-- A call in a state calls another in a later state: it tries it after others
that find nothing, or hands over to it as a replacement. -/
inductive Calls
    (resolver : Resolver) : Call × SearchState → Call × SearchState → Prop
  | tries {call next : Call} {state between after : SearchState}
      {earlier later : List Call} :
      resolver.opening call state =
        (.tries (earlier ++ next :: later), between) →
      (∀ replace,
        firstFinding (earlier.map (resolver.perform replace)) between =
          some (none, after)) →
      Calls resolver (call, state) (next, after)
  | replaces {call : Call} {state after : SearchState}
      {package : PackageDescriptor} {specifier : String} {kind : EntryKind} :
      resolver.opening call state =
        (.replaced package (.path specifier) kind, after) →
      Calls resolver (call, state) (.replacement package specifier kind, after)

/-- A call that a finding comes from: it ends with a file, or it is replaced by
nothing or by something that leads nowhere. -/
inductive Ends (resolver : Resolver) : Call × SearchState → Finding → Prop
  | file {call : Call} {state after : SearchState} {path : Path} :
      resolver.opening call state = (.ended (some path), after) →
      Ends resolver (call, state) (.file path)
  | stub {call : Call} {state after : SearchState} {package : PackageDescriptor}
      {kind : EntryKind} :
      resolver.opening call state = (.replaced package .stub kind, after) →
      Ends resolver (call, state) .stub
  | missing {call : Call} {state between after : SearchState}
      {package : PackageDescriptor} {specifier : String} {kind : EntryKind} :
      resolver.opening call state =
        (.replaced package (.path specifier) kind, between) →
      (∀ replace,
        resolver.perform replace (.replacement package specifier kind) between =
          some (none, after)) →
      Ends resolver (call, state) .missingReplacement

section Chains

variable {resolver : Resolver} {depth : Nat} {call : Call}
  {state after : SearchState}

/-- A replacement by a path is a search of its own, one level deeper. -/
theorem replaceWithin_path_eq_some
    {package : PackageDescriptor}
    {specifier : String}
    {kind : EntryKind}
    {finding : Finding}
    (found :
      resolver.replaceWithin depth package (.path specifier) kind state =
        some (finding, after)) :
    ∃ inner result,
      depth = inner + 1 ∧
        resolver.perform (resolver.replaceWithin inner)
          (.replacement package specifier kind) state = some (result, after) ∧
          finding = result.getD .missingReplacement := by
  cases depth with
  | zero => cases found
  | succ inner =>
      obtain ⟨⟨result, _⟩, ran, rest⟩ := Option.bind_eq_some_iff.mp found
      cases rest
      exact ⟨inner, result, rfl, ran, rfl⟩

/-- A chain of calls leads to the one that a finding comes from. The induction
is on the depth of nesting, and for one depth on the rank of the call. -/
theorem exists_calls_ends
    {finding : Finding}
    (found :
      resolver.perform (resolver.replaceWithin depth) call state =
        some (some finding, after)) :
    ∃ last, Relation.ReflTransGen resolver.Calls (call, state) last ∧
      resolver.Ends last finding := by
  induction depth using Nat.strong_induction_on
    generalizing call state after finding with
  | h depth deeper =>
  induction rank : call.rank using Nat.strong_induction_on
    generalizing call state after finding with
  | h rank lower =>
      rw [perform_eq_finish] at found
      rcases opens : resolver.opening call state with
        ⟨file | ⟨package, target, kind⟩ | calls, between⟩
      · rw [opens] at found
        have ended : file.map .file = some finding :=
          congrArg Prod.fst (Option.some.inj found)
        obtain ⟨path, rfl, rfl⟩ := Option.map_eq_some_iff.mp ended
        exact ⟨_, .refl, .file opens⟩
      · rw [opens] at found
        obtain ⟨met, same, carried⟩ := exists_of_map_some found
        obtain rfl := Option.some.inj same
        cases target with
        | stub =>
            have stubs : finding = .stub := by
              cases depth <;> cases carried <;> rfl
            exact ⟨_, .refl, stubs ▸ .stub opens⟩
        | path specifier =>
            obtain ⟨inner, result, rfl, ran, rfl⟩ :=
              replaceWithin_path_eq_some carried
            cases result with
            | none =>
                exact ⟨_, .refl, .missing opens fun replace =>
                  perform_none replace ran⟩
            | some finding =>
                obtain ⟨last, chain, ends⟩ := deeper inner (by omega) ran
                exact ⟨last, .head (.replaces opens) chain, ends⟩
      · rw [opens] at found
        obtain ⟨earlier, next, later, middle, rfl, nothing, ran⟩ :=
          exists_first_of_firstFinding found
        have below :=
          (attempts_of_opening opens (List.mem_append_cons_self)).rank_lt
        obtain ⟨last, chain, ends⟩ := lower next.rank (by omega) ran rfl
        exact ⟨last, .head
          (.tries opens fun replace => firstFinding_none replace nothing) chain,
          ends⟩

/-- A call that a finding comes from has this finding, if it returns. -/
theorem Ends.finding_eq
    {finding : Finding}
    (ends : resolver.Ends (call, state) finding)
    {result : Option Finding}
    (returns : resolver.perform (resolver.replaceWithin depth) call state =
      some (result, after)) :
    result = some finding := by
  rw [perform_eq_finish] at returns
  cases ends with
  | file opens =>
      rw [opens] at returns
      cases returns
      rfl
  | stub opens =>
      rw [opens] at returns
      cases depth <;> cases returns <;> rfl
  | missing opens nothing =>
      rw [opens] at returns
      obtain ⟨_, rfl, carried⟩ := exists_of_map_some returns
      obtain ⟨inner, result, rfl, ran, rfl⟩ :=
        replaceWithin_path_eq_some carried
      rw [nothing] at ran
      cases ran
      rfl

/-- Along a chain of calls, what its last call finds is what the first one
finds, if it returns. -/
theorem finding_eq_of_calls
    {start last : Call × SearchState}
    {finding : Finding}
    (chain : Relation.ReflTransGen resolver.Calls start last)
    (ends : resolver.Ends last finding)
    {result : Option Finding}
    (returns :
      resolver.perform (resolver.replaceWithin depth) start.1 start.2 =
        some (result, after)) :
    result = some finding := by
  induction chain using Relation.ReflTransGen.head_induction_on
    generalizing depth result after with
  | refl => exact ends.finding_eq returns
  | head calls _ inductionHypothesis =>
      rw [perform_eq_finish] at returns
      cases calls with
      | tries opens nothing =>
          rw [opens] at returns
          have continued :=
            (firstFinding_append_of_none (nothing _)).symm.trans returns
          rw [List.map_cons, firstFinding, Search.bind_apply] at continued
          obtain ⟨⟨found, middle⟩, ran, rest⟩ :=
            Option.bind_eq_some_iff.mp continued
          obtain rfl := inductionHypothesis ran
          cases rest
          rfl
      | replaces opens =>
          rw [opens] at returns
          obtain ⟨_, rfl, carried⟩ := exists_of_map_some returns
          obtain ⟨inner, found, rfl, ran, rfl⟩ :=
            replaceWithin_path_eq_some carried
          rw [inductionHypothesis ran, Option.getD_some]

/-- If a call returns, it has the finding of exactly those calls that it leads
to. -/
theorem finding_iff_exists_calls_ends
    {result : Option Finding}
    (returns : resolver.perform (resolver.replaceWithin depth) call state =
      some (result, after))
    (finding : Finding) :
    result = some finding ↔
      ∃ last, Relation.ReflTransGen resolver.Calls (call, state) last ∧
        resolver.Ends last finding := by
  constructor
  · rintro rfl
    exact exists_calls_ends returns
  · rintro ⟨last, chain, ends⟩
    exact finding_eq_of_calls chain ends returns

end Chains

/-! ## What calls know of packages -/

/-- The package that a call knows of. -/
def Call.known : Call → Option PackageDescriptor
  | candidate scope _ => scope
  | candidates scope _ => scope
  | directory scope _ => scope
  | path scope _ => scope
  | package _ _ => none
  | bare scope _ _ => scope
  | replacement replacing _ _ => some replacing

/-- A call that is made in the course of a first call: the memo is honest, the
package that it knows of is described by some manifest, and module entries
count for the first call alone. -/
structure Grounded
    (resolver : Resolver)
    (first : Call)
    (reached : Call × SearchState) : Prop where
  /-- The memo says what the manifests say. -/
  honest : reached.2.memo.Honest resolver.fileSystem resolver.config.manifest
  /-- The package is what its manifest says. -/
  described : resolver.Described reached.1.known
  /-- A call for which module entries count is the first one. -/
  module : ∀ package context specifier,
    reached.1 = .bare (some package) context specifier → reached.1 = first

section Grounded

variable {resolver : Resolver} {replace : Replace} {first call : Call}
variable {state after : SearchState}

/-- A search keeps a property of memos, whichever call it performs. -/
theorem Tracks.ensures_perform
    {keeps : DescriptorMemo → Prop}
    {wanted : Finding → Prop}
    (tracks : resolver.Tracks keeps wanted)
    (replaces : EnsuresReplace keeps wanted replace)
    (call : Call) :
    EnsuresFinding keeps wanted (resolver.perform replace call) := by
  cases call with
  | candidate scope candidate =>
      exact tracks.ensures_searchCandidate replaces scope candidate
  | candidates scope candidates =>
      exact tracks.ensures_searchCandidates replaces scope candidates
  | directory scope directory =>
      exact tracks.ensures_searchDirectory replaces scope directory
  | path scope target => exact tracks.ensures_searchPath replaces scope target
  | package inside directory =>
      exact tracks.ensures_searchPackage replaces inside directory
  | bare scope context specifier =>
      exact tracks.ensures_searchBare replaces scope context specifier
  | replacement package specifier kind =>
      exact tracks.ensures_searchReplacement replaces package specifier kind

/-- So do several calls in a row. -/
theorem Tracks.ensures_performAll
    {keeps : DescriptorMemo → Prop}
    {wanted : Finding → Prop}
    (tracks : resolver.Tracks keeps wanted)
    (replaces : EnsuresReplace keeps wanted replace)
    (calls : List Call) :
    EnsuresFinding keeps wanted
      (firstFinding (calls.map (resolver.perform replace))) := by
  refine ensures_firstFinding fun search present => ?_
  obtain ⟨call, _, rfl⟩ := List.mem_map.mp present
  exact tracks.ensures_perform replaces call

/-- The questions at the beginning of a call are answered honestly. -/
theorem honest_opening
    (call : Call)
    (honest : state.memo.Honest resolver.fileSystem resolver.config.manifest) :
    (resolver.opening call state).2.memo.Honest resolver.fileSystem
      resolver.config.manifest := by
  cases call with
  | candidate scope candidate =>
      rw [opening, candidateOpening]
      split
      · exact honest
      · exact honest
  | directory scope directory => exact honest.describe directory
  | package inside directory =>
      rw [opening, packageOpening]
      dsimp only
      split
      · dsimp only
        split
        · exact honest.describe directory
        · exact honest
      · exact honest
  | candidates | path | bare | replacement => exact honest

theorem described_none : resolver.Described none := by
  intro package isNone
  cases isNone

/-- The package inside a directory is described, as the one around is. -/
theorem Described.innerScope
    {own scope : Option PackageDescriptor}
    (inside : resolver.config.browser = true → resolver.Described own)
    (around : resolver.Described scope) :
    resolver.Described (resolver.innerScope own scope) := by
  unfold Resolver.innerScope
  split
  next browser =>
    cases own with
    | none => exact around
    | some _ => exact inside browser
  next => exact described_none

/-- What an honest memo answers is described by a manifest. -/
theorem described_descriptorIn
    {memo : DescriptorMemo}
    (honest : memo.Honest resolver.fileSystem resolver.config.manifest)
    (directory : Path)
    (browser : resolver.config.browser = true) :
    resolver.Described (resolver.descriptorIn memo directory).1 := by
  obtain ⟨spelling, _, answer⟩ := honest.describe_answer directory
  exact fun package isPackage =>
    ⟨browser, spelling, answer.symm.trans isPackage⟩

/-- The packages that a call knows of are described on every level. -/
theorem Attempts.described
    {next : Call}
    (attempts : resolver.Attempts state call next)
    (honest : state.memo.Honest resolver.fileSystem resolver.config.manifest)
    (described : resolver.Described call.known) :
    resolver.Described next.known := by
  cases attempts with
  | candidate | exact | directory => exact described
  | files scope directory _ =>
      exact Described.innerScope (described_descriptorIn honest directory)
        described
  | inside path directory own =>
      rw [Call.known, own]
      split
      next browser => exact described_descriptorIn honest directory browser
      next => exact described_none
  | whole | package | asPath | asModule => exact described_none

/-- Module entries do not count for calls that others make. -/
theorem Attempts.ne_bare_some
    {next : Call}
    (attempts : resolver.Attempts state call next)
    (package : PackageDescriptor)
    (context : Path)
    (specifier : String) : next ≠ .bare (some package) context specifier := by
  rintro rfl
  cases attempts

/-- An entry that a call meets is that of a manifest. -/
theorem Meets.offers
    {package : PackageDescriptor}
    {target : BrowserTarget}
    {kind : EntryKind}
    (meets : resolver.Meets state call package target kind)
    (honest : state.memo.Honest resolver.fileSystem resolver.config.manifest)
    (described : resolver.Described call.known) :
    resolver.Offers package target kind := by
  cases meets with
  | file replaced =>
      obtain ⟨rfl, entry⟩ := fileReplacement?_eq_some replaced
      exact ⟨described, _, entry⟩
  | main scope replaced =>
      obtain ⟨browser, own, entry⟩ := mainReplacement?_eq_some replaced
      refine ⟨?_, entry⟩
      rw [← own]
      exact described_descriptorIn honest _ browser
  | module context replaced =>
      obtain ⟨rfl, entry⟩ := moduleReplacement?_eq_some replaced
      exact ⟨described, _, entry⟩

/-- One step of a chain of calls. -/
theorem Grounded.calls
    {reached next : Call × SearchState}
    (grounded : resolver.Grounded first reached)
    (calls : resolver.Calls reached next) : resolver.Grounded first next := by
  cases calls with
  | @tries call next state between after earlier later opens nothing =>
      have attempts := attempts_of_opening opens List.mem_append_cons_self
      have honest := honest_opening call grounded.honest
      rw [opens] at honest
      -- Any way to carry out replacements will do: no call before has met one.
      have replaces :
          EnsuresReplace (·.Honest resolver.fileSystem resolver.config.manifest)
            (fun _ => True)
            fun _ _ _ => pure .stub :=
        fun _ _ _ => Search.Ensures.pure trivial
      have keeps := resolver.tracks_honest.ensures_performAll replaces earlier
      exact
        { honest := (keeps _ _ _ honest (nothing _)).1
          described := attempts.described grounded.honest grounded.described
          module := fun package context specifier isBare =>
            absurd isBare (attempts.ne_bare_some package context specifier) }
  | @replaces call _ _ _ _ _ opens =>
      have honest := honest_opening call grounded.honest
      rw [opens] at honest
      exact
        { honest
          described :=
            ((meets_of_opening opens).offers grounded.honest
              grounded.described).described
          module := fun _ _ _ isBare => by cases isBare }

/-- By induction on the calls, what grounds the first one grounds all. -/
theorem Grounded.chain
    {start last : Call × SearchState}
    (grounded : resolver.Grounded first start)
    (chain : Relation.ReflTransGen resolver.Calls start last) :
    resolver.Grounded first last := by
  induction chain with
  | refl => exact grounded
  | tail _ calls inductionHypothesis => exact inductionHypothesis.calls calls

end Grounded

end Resolver
end CommonJs
