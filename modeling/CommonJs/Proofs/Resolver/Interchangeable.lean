import CommonJs.Proofs.Resolver.InStep

/-!
# Packages that cannot be told apart

A search looks at a package for its main file and for the replacements that
its entries name. Where the descriptors of two packages agree on those, so do
the scopes of two requests and what two directories say of themselves. The
answers of honest memos are what stands in the manifests, so memos can be
compared by the manifests that they are about.
-/

namespace CommonJs
namespace Resolver

open Search (InStep)

/-! ## Scopes that cannot be told apart -/

/-- Entries that name the same replacement in directories that correspond. -/
def SameEntry
    (same : Path → Path → Prop)
    (entry other : PackageDescriptor × BrowserTarget) : Prop :=
  same entry.1.directory other.1.directory ∧ entry.2 = other.2

/-- Two packages, or none, whose entries replace the same requests. -/
structure SameScope
    (same : Path → Path → Prop)
    (first second : Resolver)
    (scope otherScope : Option PackageDescriptor) : Prop where
  /-- Candidates that correspond have the same replacement, or none. -/
  file {candidate other : Path} :
    same candidate other →
      Option.Rel (SameEntry same) (first.fileReplacement? scope candidate)
        (second.fileReplacement? otherScope other)
  /-- So have bare specifiers. -/
  module (specifier : String) :
    Option.Rel (SameEntry same) (moduleReplacement? scope specifier)
      (moduleReplacement? otherScope specifier)

/-- What two directories say of themselves, when it leads searches the same
way: one main file, one replacement for it, and packages inside that
correspond. -/
structure SameOwn
    (same : Path → Path → Prop)
    (scopes : Option PackageDescriptor → Option PackageDescriptor → Prop)
    (first second : Resolver)
    (own other : Option PackageDescriptor) : Prop where
  /-- The main files are spelled the same. -/
  main : own.bind (·.main) = other.bind (·.main)
  /-- The same stands for them. -/
  replacement :
    Option.Rel (SameEntry same) (first.mainReplacement? own)
      (second.mainReplacement? other)
  /-- The packages inside correspond where those around do. -/
  innerScope {scope otherScope : Option PackageDescriptor} :
    scopes scope otherScope →
      scopes (first.innerScope own scope) (second.innerScope other otherScope)

/-! ## Descriptors that cannot be told apart -/

/-- A relation of descriptors that name the same replacements, in directories
that correspond, to resolvers that ask for candidates that do. -/
structure Interchangeable
    (first second : Resolver)
    (same near : Path → Path → Prop)
    (related : PackageDescriptor → PackageDescriptor → Prop) : Prop where
  /-- Browser fields count for both or for neither. -/
  browser : first.config.browser = second.config.browser
  /-- The directories correspond. -/
  directory {package other : PackageDescriptor} :
    related package other → same package.directory other.directory
  /-- The main files are spelled the same. -/
  main {package other : PackageDescriptor} :
    related package other → package.main = other.main
  /-- One target stands for the main file. -/
  mainEntry {package other : PackageDescriptor} :
    related package other → package.browser.main = other.browser.main
  /-- One target stands for each bare specifier. -/
  module {package other : PackageDescriptor} (specifier : String) :
    related package other →
      package.browser.module? specifier = other.browser.module? specifier
  /-- One target stands for candidates that correspond. -/
  file {package other : PackageDescriptor} {candidate otherCandidate : Path} :
    related package other → near candidate otherCandidate →
      package.browser.file? (first.fileSystem.canonicalize candidate) =
        other.browser.file? (second.fileSystem.canonicalize otherCandidate)

namespace Interchangeable

variable {first second : Resolver} {same near : Path → Path → Prop}
variable {related : PackageDescriptor → PackageDescriptor → Prop}
variable {scope otherScope : Option PackageDescriptor}

/-- One target that two related packages name. -/
theorem sameEntry
    (interchangeable : Interchangeable first second same near related)
    {package other : PackageDescriptor}
    (both : related package other)
    (target : Option BrowserTarget) :
    Option.Rel (SameEntry same)
      (target.bind fun target => some (package, target))
      (target.bind fun target => some (other, target)) := by
  cases target with
  | none => exact .none
  | some target => exact .some ⟨interchangeable.directory both, rfl⟩

/-- A candidate has one replacement in both packages. -/
theorem fileReplacement?
    (interchangeable : Interchangeable first second same near related)
    (scopes : Option.Rel related scope otherScope)
    {candidate other : Path}
    (candidates : near candidate other) :
    Option.Rel (SameEntry same) (first.fileReplacement? scope candidate)
      (second.fileReplacement? otherScope other) := by
  rw [fileReplacement?_eq, fileReplacement?_eq]
  cases scopes with
  | none => exact .none
  | some both =>
      rw [Option.bind_some, Option.bind_some,
        interchangeable.file both candidates, Option.map_eq_bind,
        Option.map_eq_bind]
      exact interchangeable.sameEntry both _

/-- So has a bare specifier. -/
theorem moduleReplacement?
    (interchangeable : Interchangeable first second same near related)
    (scopes : Option.Rel related scope otherScope)
    (specifier : String) :
    Option.Rel (SameEntry same) (Resolver.moduleReplacement? scope specifier)
      (Resolver.moduleReplacement? otherScope specifier) := by
  cases scopes with
  | none => exact .none
  | @some package other both =>
      unfold Resolver.moduleReplacement?
      rw [Option.bind_eq_bind, Option.bind_eq_bind, Option.bind_some,
        Option.bind_some, interchangeable.module specifier both]
      exact interchangeable.sameEntry both _

/-- Descriptors that are related lead searches the same way. -/
theorem sameOwn
    (interchangeable : Interchangeable first second same near related)
    {own other : Option PackageDescriptor}
    (owns : Option.Rel related own other) :
    SameOwn same (Option.Rel related) first second own other where
  main := by
    cases owns with
    | none => rfl
    | some both => exact interchangeable.main both
  replacement := by
    cases owns with
    | none => exact .none
    | some both =>
        unfold mainReplacement?
        simp only [Option.bind_eq_bind, Option.bind_some,
          interchangeable.browser, interchangeable.mainEntry both]
        split
        · exact interchangeable.sameEntry both _
        · exact .none
  innerScope surrounds := by
    unfold Resolver.innerScope
    rw [interchangeable.browser]
    split
    · cases owns with
      | none => exact surrounds
      | some both => exact .some both
    · exact .none

end Interchangeable

/-! ## Honest memos -/

/-- States with honest memos. -/
structure HonestMemos
    (first second : Resolver)
    (state other : SearchState) : Prop where
  /-- The memo says what the first resolver reads. -/
  memo : state.memo.Honest first.fileSystem first.config.manifest
  /-- The other memo says what the second resolver reads. -/
  otherMemo : other.memo.Honest second.fileSystem second.config.manifest

/-- States with honest memos and with trails that correspond. -/
structure HonestStates
    (first second : Resolver)
    (same : Path → Path → Prop)
    (state other : SearchState) : Prop where
  /-- The memo says what the first resolver reads. -/
  memo : state.memo.Honest first.fileSystem first.config.manifest
  /-- The other memo says what the second resolver reads. -/
  otherMemo : other.memo.Honest second.fileSystem second.config.manifest
  /-- The trails correspond. -/
  trail : Trail.Alike same state.trail other.trail

/-- States that correspond have honest memos, and correspond whichever honest
memos they have. -/
structure OverHonest
    (first second : Resolver)
    (states : SearchState → SearchState → Prop) : Prop where
  /-- Both memos are honest. -/
  honest {state other : SearchState} :
    states state other → HonestMemos first second state other
  /-- Any other honest memos may take their place. -/
  keeps {state other : SearchState} {memo otherMemo : DescriptorMemo} :
    states state other →
      memo.Honest first.fileSystem first.config.manifest →
        otherMemo.Honest second.fileSystem second.config.manifest →
          states { state with memo } { other with memo := otherMemo }

/-- The answers of honest memos for directories that correspond are related. -/
def AnswersAlike
    (first second : Resolver)
    (same : Path → Path → Prop)
    (related : Option PackageDescriptor → Option PackageDescriptor → Prop) :
    Prop :=
  ∀ (directory other : Path) (memo otherMemo : DescriptorMemo),
    same directory other →
      memo.Honest first.fileSystem first.config.manifest →
        otherMemo.Honest second.fileSystem second.config.manifest →
          related (first.descriptorIn memo directory).1
            (second.descriptorIn otherMemo other).1

section Honest

variable {first second : Resolver} {same : Path → Path → Prop}
variable {states : SearchState → SearchState → Prop}

theorem overHonest_honestMemos :
    OverHonest first second (HonestMemos first second) where
  honest correspond := correspond
  keeps _ honest otherHonest := ⟨honest, otherHonest⟩

theorem overHonest_honestStates :
    OverHonest first second (HonestStates first second same) where
  honest correspond := ⟨correspond.memo, correspond.otherMemo⟩
  keeps correspond honest otherHonest := ⟨honest, otherHonest, correspond.trail⟩

/-- Honest memos may be exchanged for one another. -/
theorem HonestMemos.rectangular :
    Search.Rectangular (HonestMemos first second) :=
  fun _ _ _ _ one two => ⟨one.memo, two.otherMemo⟩

theorem HonestMemos.tryPlace (place other : Path) :
    InStep (HonestMemos first second) (fun _ _ => True)
      (Resolver.tryPlace place)
      (Resolver.tryPlace other) :=
  fun _ _ related => .some ⟨trivial, related.memo, related.otherMemo⟩

/-- Places that correspond come into both trails. -/
theorem HonestStates.tryPlace
    {place other : Path}
    (places : same place other) :
    InStep (HonestStates first second same) (fun _ _ => True)
      (Resolver.tryPlace place)
      (Resolver.tryPlace other) :=
  fun _ _ related =>
    .some ⟨trivial, related.memo, related.otherMemo, related.trail.add places⟩

/-- Answers for two directories correspond if they do for all the spellings of
the directories. -/
theorem answersAlike_of_read?
    {related : Option PackageDescriptor → Option PackageDescriptor → Prop}
    (answers : ∀ directory other spelling otherSpelling : Path,
      same directory other → spelling.SameWay directory →
        otherSpelling.SameWay other →
        related
          (PackageDescriptor.read? first.fileSystem first.config.manifest
            spelling)
          (PackageDescriptor.read? second.fileSystem second.config.manifest
            otherSpelling)) :
    AnswersAlike first second same related := by
  intro directory other memo otherMemo both honest otherHonest
  obtain ⟨spelling, spells, answer⟩ := honest.describe_answer directory
  obtain ⟨otherSpelling, otherSpells, otherAnswer⟩ :=
    otherHonest.describe_answer other
  rw [descriptorIn, descriptorIn, answer, otherAnswer]
  exact answers directory other spelling otherSpelling both spells otherSpells

/-- What is answered alike stays in step. -/
theorem AnswersAlike.describe
    {related : Option PackageDescriptor → Option PackageDescriptor → Prop}
    (answers : AnswersAlike first second same related)
    (overHonest : OverHonest first second states)
    {directory other : Path}
    (both : same directory other) :
    InStep states related (first.describe directory)
      (second.describe other) := by
  intro state otherState correspond
  have honest := overHonest.honest correspond
  exact .some
    ⟨answers _ _ _ _ both honest.memo honest.otherMemo,
      overHonest.keeps correspond (honest.memo.describe directory)
        (honest.otherMemo.describe other)⟩

/-- The nearest descriptors are related if those of directories that correspond
are. -/
theorem AnswersAlike.firstOf
    {related : PackageDescriptor → PackageDescriptor → Prop}
    (answers : AnswersAlike first second same (Option.Rel related))
    {memo otherMemo : DescriptorMemo}
    (honest : memo.Honest first.fileSystem first.config.manifest)
    (otherHonest : otherMemo.Honest second.fileSystem second.config.manifest)
    {directories others : List Path}
    (each : List.Forall₂ same directories others) :
    Option.Rel related
      (DescriptorMemo.firstOf first.fileSystem first.config.manifest
        directories memo).1
      (DescriptorMemo.firstOf second.fileSystem second.config.manifest others
        otherMemo).1 := by
  induction each generalizing memo otherMemo with
  | nil => exact .none
  | @cons directory other _ _ sameFirst _ inductionHypothesis =>
      have answered := answers _ _ _ _ sameFirst honest otherHonest
      have next := honest.describe directory
      have otherNext := otherHonest.describe other
      rw [descriptorIn, descriptorIn] at answered
      rw [DescriptorMemo.firstOf, DescriptorMemo.firstOf]
      generalize memo.describe _ _ directory = given at answered next
      generalize otherMemo.describe _ _ other = otherGiven at answered otherNext
      obtain ⟨answer, memo⟩ := given
      obtain ⟨otherAnswer, otherMemo⟩ := otherGiven
      cases answered with
      | none => exact inductionHypothesis next otherNext
      | some both => exact .some both

variable {related : PackageDescriptor → PackageDescriptor → Prop}

/-- So does the package around, found by one question after the other. -/
theorem AnswersAlike.scopeInside
    (answers : AnswersAlike first second same (Option.Rel related))
    (overHonest : OverHonest first second states)
    (sameBrowser : first.config.browser = second.config.browser)
    {directory other : Path}
    (both : same directory other) :
    InStep states (Option.Rel related) (first.scopeInside directory)
      (second.scopeInside other) := by
  unfold Resolver.scopeInside
  rw [sameBrowser]
  split
  · exact answers.describe overHonest both
  · exact InStep.pure .none

/-- The packages around two places are related if the places and all that is
above them correspond. Without browser fields nothing is asked. -/
theorem AnswersAlike.searchScope
    (answers : AnswersAlike first second same (Option.Rel related))
    (overHonest : OverHonest first second states)
    (sameBrowser : first.config.browser = second.config.browser)
    {context other : Path}
    {origin otherOrigin : Option Path}
    (owners : second.config.browser = true →
      List.Forall₂ same (first.owner context origin).ancestors
        (second.owner other otherOrigin).ancestors) :
    InStep states (Option.Rel related) (first.searchScope context origin)
      (second.searchScope other otherOrigin) := by
  intro state otherState correspond
  have honest := overHonest.honest correspond
  rw [Resolver.searchScope, Resolver.searchScope, scopeOf_eq, scopeOf_eq,
    sameBrowser]
  by_cases browser : second.config.browser = true
  · rw [if_pos browser, if_pos browser]
    exact .some
      ⟨answers.firstOf honest.memo honest.otherMemo (owners browser),
        overHonest.keeps correspond (first.tracks_honest.firstOf _ honest.memo)
          (second.tracks_honest.firstOf _ honest.otherMemo)⟩
  · rw [if_neg browser, if_neg browser]
    exact .some ⟨.none, correspond⟩

end Honest

end Resolver
end CommonJs
