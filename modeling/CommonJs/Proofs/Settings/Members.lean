import CommonJs.Resolver.Config
import Mathlib.Data.List.Nodup
import Mathlib.Data.List.Perm.Subperm
import Mathlib.Tactic.SplitIfs

/-!
# Members that give settings

An object gives settings by the names of its members, wherever they stand and
whatever stands between them. Each setting is given at most once, by a value
of its type; a setting that is not given is the standard one.
-/

namespace CommonJs
namespace ResolverConfig

/-- The settings of some names, and the standard ones for the others. -/
def keeping
    (config : ResolverConfig)
    (kept : List String) : ResolverConfig where
  extensions :=
    if "extensions" ∈ kept then config.extensions else standard.extensions
  packageRoots :=
    if "packageRoots" ∈ kept then config.packageRoots else standard.packageRoots
  manifest := if "manifest" ∈ kept then config.manifest else standard.manifest
  browser := if "browser" ∈ kept then config.browser else standard.browser

/-- The value is of the type that the setting of this name has. -/
def Fits (name : String) (value : Json) : Prop :=
  match name with
  | "extensions" | "packageRoots" =>
      ∃ texts : List String, value = .array (texts.map .string)
  | "manifest" => ∃ text, value = .string text
  | "browser" => ∃ flag, value = .bool flag
  | _ => False

/-- The members with the names of settings are these, in this order. Between
them there may be any members of other names, whatever their values. -/
inductive Gives : List (List TextUnit × Literal) → List (String × Json) → Prop
  | nothing : Gives [] []
  | setting {key : List TextUnit} {literal : Literal} {name : String}
      {value : Json} {members : List (List TextUnit × Literal)}
      {given : List (String × Json)} :
      Literal.textOf? key = some name → name ∈ names →
      literal.value? = some value →
      Gives members given →
        Gives ((key, literal) :: members) ((name, value) :: given)
  | unknown {key : List TextUnit} {literal : Literal} {name : String}
      {members : List (List TextUnit × Literal)}
      {given : List (String × Json)} :
      Literal.textOf? key = some name → name ∉ names →
      Gives members given → Gives ((key, literal) :: members) given

/-! ## Values of the right type -/

/-- A text is read from what has the value of a text. -/
theorem readText?_eq_some_iff (literal : Literal) (text : String) :
    readText? literal = some text ↔ literal.value? = some (.string text) := by
  cases literal <;> simp [readText?, Literal.value?]

/-- A flag is read from what has the value of a flag. -/
theorem readBool?_eq_some_iff (literal : Literal) (flag : Bool) :
    readBool? literal = some flag ↔ literal.value? = some (.bool flag) := by
  cases literal <;> simp [readBool?, Literal.value?]

theorem mapM_readText?_eq_some_iff
    (items : List Literal)
    (texts : List String) :
    items.mapM readText? = some texts ↔
      Literal.valuesOfItems? items = some (texts.map .string) := by
  induction items generalizing texts with
  | nil => cases texts <;> simp [Literal.valuesOfItems?]
  | cons item items inductionHypothesis =>
      cases texts with
      | nil => simp [Literal.valuesOfItems?, Option.bind_eq_some_iff]
      | cons text texts =>
          simp [Literal.valuesOfItems?, Option.bind_eq_some_iff,
            inductionHypothesis, readText?_eq_some_iff]

/-- Texts are read from an array of texts. -/
theorem readTexts?_eq_some_iff (literal : Literal) (texts : List String) :
    readTexts? literal = some texts ↔
      literal.value? = some (.array (texts.map .string)) := by
  cases literal with
  | array items => simp [readTexts?, Literal.value?, mapM_readText?_eq_some_iff]
  | _ => simp [readTexts?, Literal.value?]

/-! ## Settings that are given -/

namespace Given

/-- The members that give these settings. -/
def members (given : Given) : List (String × Json) :=
  (given.extensions.map fun texts =>
      ("extensions", Json.array (texts.map .string))).toList ++
    ((given.packageRoots.map fun texts =>
        ("packageRoots", Json.array (texts.map .string))).toList ++
      ((given.manifest.map fun text => ("manifest", Json.string text)).toList ++
        (given.browser.map fun flag => ("browser", Json.bool flag)).toList))

theorem nodup_names_members
    (given : Given) : (given.members.map Prod.fst).Nodup := by
  obtain ⟨_ | extensions, _ | packageRoots, _ | manifest, _ | browser⟩ :=
    given <;> simp [members]

/-- What is given has the type of its setting. -/
theorem fits_of_mem_members
    {given : Given}
    {name : String}
    {value : Json}
    (present : (name, value) ∈ given.members) : Fits name value := by
  simp only [members, List.mem_append, Option.mem_toList,
    Option.map_eq_some_iff, Prod.mk.injEq] at present
  rcases present with ⟨content, _, rfl, rfl⟩ | ⟨content, _, rfl, rfl⟩ |
    ⟨content, _, rfl, rfl⟩ | ⟨content, _, rfl, rfl⟩ <;> exact ⟨content, rfl⟩

/-- A setting is given by the member with its name. -/
theorem mem_members_iff (given : Given) :
    (∀ texts, ("extensions", .array (texts.map .string)) ∈ given.members ↔
      given.extensions = some texts) ∧
    (∀ texts, ("packageRoots", .array (texts.map .string)) ∈ given.members ↔
      given.packageRoots = some texts) ∧
    (∀ text, ("manifest", .string text) ∈ given.members ↔
      given.manifest = some text) ∧
    ∀ flag, ("browser", .bool flag) ∈ given.members ↔
      given.browser = some flag := by
  have injective : Function.Injective (List.map Json.string) :=
    Function.Injective.list_map fun _ _ => Json.string.inj
  simp [members, injective.eq_iff]

/-- Settings are determined by the members that give them. -/
theorem eq_of_perm_members
    {first second : Given}
    (same : first.members.Perm second.members) : first = second := by
  obtain ⟨extensions, packageRoots, manifest, browser⟩ := first.mem_members_iff
  obtain ⟨extensions', packageRoots', manifest', browser'⟩ :=
    second.mem_members_iff
  have sameExtensions : first.extensions = second.extensions :=
    Option.ext fun texts => by rw [← extensions, ← extensions', same.mem_iff]
  have samePackageRoots : first.packageRoots = second.packageRoots :=
    Option.ext fun texts => by
      rw [← packageRoots, ← packageRoots', same.mem_iff]
  have sameManifest : first.manifest = second.manifest :=
    Option.ext fun text => by rw [← manifest, ← manifest', same.mem_iff]
  have sameBrowser : first.browser = second.browser :=
    Option.ext fun flag => by rw [← browser, ← browser', same.mem_iff]
  cases first
  cases second
  congr

end Given

/-! ## One member -/

theorem addMember?_of_unknown
    {name : String}
    (unknown : name ∉ names)
    (given : Given)
    (literal : Literal) : addMember? given name literal = some given := by
  simp only [names, List.mem_cons, List.not_mem_nil, or_false, not_or]
    at unknown
  obtain ⟨notExtensions, notPackageRoots, notManifest, notBrowser⟩ := unknown
  rw [addMember?]
  · exact notExtensions
  · exact notPackageRoots
  · exact notManifest
  · exact notBrowser

/-- One more setting is given, by a value of its type. -/
structure Adds
    (before : Given)
    (name : String)
    (value : Json)
    (after : Given) : Prop where
  /-- The setting was not given before. -/
  fresh : name ∉ before.members.map Prod.fst
  /-- The value has the type of the setting. -/
  fits : Fits name value
  /-- Nothing else is given or taken away. -/
  perm : after.members.Perm ((name, value) :: before.members)

/-- A member is taken exactly if it can be added. -/
def TakesWhatAdds
    (before : Given)
    (name : String)
    (literal : Literal)
    (taken : Option Given) : Prop :=
  (∀ after, taken = some after →
    ∃ value, literal.value? = some value ∧ Adds before name value after) ∧
  ∀ value, literal.value? = some value → Fits name value →
    name ∉ before.members.map Prod.fst → ∃ after, taken = some after

/-- A setting that is not held yet is read and held from then on. -/
theorem takesWhatAdds_of_slot
    {α : Type}
    {slot : Option α}
    {read : Literal → Option α}
    {toValue : α → Json}
    {put : α → Given}
    {before : Given}
    {name : String}
    {literal : Literal}
    (reads : ∀ content, read literal = some content ↔
      literal.value? = some (toValue content))
    (fits : ∀ value, Fits name value ↔ ∃ content, value = toValue content)
    (absent : name ∉ before.members.map Prod.fst ↔ slot = none)
    (puts : slot = none →
      ∀ content, (put content).members.Perm
        ((name, toValue content) :: before.members)) :
    TakesWhatAdds before name literal
      (if slot.isSome then none else (read literal).map put) := by
  constructor
  · intro after taken
    split_ifs at taken with held
    have empty : slot = none := by simpa using held
    obtain ⟨content, isRead, rfl⟩ := Option.map_eq_some_iff.mp taken
    exact ⟨_, (reads content).mp isRead, absent.mpr empty,
      (fits _).mpr ⟨content, rfl⟩, puts empty content⟩
  · intro value isValue isFit fresh
    obtain ⟨content, rfl⟩ := (fits value).mp isFit
    rw [absent.mp fresh, (reads content).mpr isValue]
    exact ⟨_, rfl⟩

/-- A member with the name of a setting is taken exactly if that setting is
not given yet and the value is of its type. -/
theorem takesWhatAdds_addMember?
    {name : String}
    (known : name ∈ names)
    (before : Given)
    (literal : Literal) :
    TakesWhatAdds before name literal (addMember? before name literal) := by
  simp only [names, List.mem_cons, List.not_mem_nil, or_false] at known
  rcases known with rfl | rfl | rfl | rfl
  · refine takesWhatAdds_of_slot (readTexts?_eq_some_iff literal)
      (fun _ => Iff.rfl) ?_ ?_
    · cases given : before.extensions <;> simp [Given.members, given]
    · intro absent texts
      simp [Given.members, absent]
  · refine takesWhatAdds_of_slot (readTexts?_eq_some_iff literal)
      (fun _ => Iff.rfl) ?_ ?_
    · cases given : before.packageRoots <;> simp [Given.members, given]
    · intro absent texts
      simp [Given.members, absent]
  · refine takesWhatAdds_of_slot (readText?_eq_some_iff literal)
      (fun _ => Iff.rfl) ?_ ?_
    · cases given : before.manifest <;> simp [Given.members, given]
    · intro absent text
      simp only [Given.members, absent, Option.map_none, Option.map_some,
        Option.toList_none, Option.toList_some, List.nil_append,
        List.singleton_append]
      rw [← List.append_assoc, ← List.append_assoc]
      exact List.perm_middle
  · refine takesWhatAdds_of_slot (readBool?_eq_some_iff literal)
      (fun _ => Iff.rfl) ?_ ?_
    · cases given : before.browser <;> simp [Given.members, given]
    · intro absent flag
      simp only [Given.members, absent, Option.map_none, Option.map_some,
        Option.toList_none, Option.toList_some, List.append_nil]
      rw [← List.append_assoc, ← List.append_assoc, ← List.append_assoc]
      exact List.perm_append_singleton _ _

/-! ## All members of an object -/

/-- Members are taken exactly if they give settings, each once and of its
type, that are not given yet. These are then given as well. -/
theorem readMembers?_eq_some_iff
    (members : List (List TextUnit × Literal))
    (before after : Given) :
    readMembers? before members = some after ↔
      ∃ given, Gives members given ∧
        (given ++ before.members).Perm after.members := by
  induction members generalizing before with
  | nil =>
      rw [readMembers?, Option.some.injEq]
      constructor
      · rintro rfl
        exact ⟨[], .nothing, .refl _⟩
      · rintro ⟨_, ⟨⟩, same⟩
        exact Given.eq_of_perm_members same
  | cons member rest inductionHypothesis =>
      obtain ⟨key, literal⟩ := member
      simp only [readMembers?, Option.bind_eq_bind, Option.bind_eq_some_iff,
        inductionHypothesis]
      constructor
      · rintro ⟨name, isName, middle, added, given, gives, same⟩
        by_cases known : name ∈ names
        · obtain ⟨value, isValue, adds⟩ :=
            (takesWhatAdds_addMember? known before literal).1 middle added
          refine ⟨(name, value) :: given,
            .setting isName known isValue gives, ?_⟩
          exact List.perm_middle.symm.trans
            ((adds.perm.symm.append_left given).trans same)
        · rw [addMember?_of_unknown known, Option.some.injEq] at added
          subst added
          exact ⟨given, .unknown isName known gives, same⟩
      · rintro ⟨_, gives, same⟩
        cases gives with
        | @setting _ _ name value _ given isName known isValue gives =>
            have whole :
                (given ++ (name, value) :: before.members).Perm after.members :=
              List.perm_middle.trans same
            have fits : Fits name value :=
              Given.fits_of_mem_members (same.subset List.mem_cons_self)
            have fresh : name ∉ before.members.map Prod.fst := by
              have distinct :=
                (whole.map Prod.fst).nodup_iff.mpr after.nodup_names_members
              rw [List.map_append, List.map_cons] at distinct
              exact (List.nodup_cons.mp distinct.of_append_right).1
            obtain ⟨taken, added⟩ :=
              takesWhatAdds_addMember? known before literal
            obtain ⟨middle, isMiddle⟩ := added value isValue fits fresh
            obtain ⟨other, isOther, adds⟩ := taken middle isMiddle
            obtain rfl := Option.some.inj (isValue.symm.trans isOther)
            exact ⟨name, isName, middle, isMiddle, given, gives,
              (adds.perm.append_left given).trans whole⟩
        | @unknown _ _ name _ given isName unknown gives =>
            exact ⟨name, isName, before,
              addMember?_of_unknown unknown before literal, _, gives, same⟩

/-- Members are read as what they give, in any order. -/
theorem readMembers?_nothing_eq_some_iff
    (members : List (List TextUnit × Literal))
    (after : Given) :
    readMembers? .nothing members = some after ↔
      ∃ given, Gives members given ∧ given.Perm after.members := by
  have noMembers : Given.nothing.members = [] := rfl
  simp only [readMembers?_eq_some_iff, noMembers, List.append_nil]

/-- The settings of some names, and no others. -/
def selecting (config : ResolverConfig) (kept : List String) : Given where
  extensions := if "extensions" ∈ kept then some config.extensions else none
  packageRoots :=
    if "packageRoots" ∈ kept then some config.packageRoots else none
  manifest := if "manifest" ∈ kept then some config.manifest else none
  browser := if "browser" ∈ kept then some config.browser else none

/-- What is not selected has the usual value. -/
theorem complete_selecting (config : ResolverConfig) (kept : List String) :
    (config.selecting kept).complete = config.keeping kept := by
  simp only [selecting, Given.complete, keeping]
  congr 1 <;> split_ifs <;> rfl

theorem members_selecting (config : ResolverConfig) (kept : List String) :
    (config.selecting kept).members = config.members.filter (·.1 ∈ kept) := by
  have slot {α : Type} (name : String) (content : α) (toValue : α → Json)
      (rest : List (String × Json)) :
      ((name, toValue content) :: rest).filter (·.1 ∈ kept) =
        ((if name ∈ kept then some content else none).map fun content =>
          (name, toValue content)).toList ++ rest.filter (·.1 ∈ kept) := by
    by_cases present : name ∈ kept <;> simp [present]
  rw [members, slot "extensions" config.extensions fun texts =>
      .array (texts.map .string),
    slot "packageRoots" config.packageRoots fun texts =>
      .array (texts.map .string),
    slot "manifest" config.manifest .string,
    slot "browser" config.browser .bool, List.filter_nil, List.append_nil]
  rfl

theorem nodup_names_members (config : ResolverConfig) :
    (config.members.map Prod.fst).Nodup := by
  simp [members]

/-- Some of the members of settings, in any order, are the members of the
settings of their names. -/
theorem perm_members_selecting
    {config : ResolverConfig}
    {given : List (String × Json)}
    (chosen : given.Subperm config.members) :
    given.Perm (config.selecting (given.map Prod.fst)).members := by
  have distinct := config.nodup_names_members
  have nodup : given.Nodup := by
    obtain ⟨kept, same, sublist⟩ := chosen
    exact same.nodup_iff.mp (distinct.of_map.sublist sublist)
  rw [members_selecting,
    List.perm_ext_iff_of_nodup nodup (distinct.of_map.filter _)]
  intro member
  rw [List.mem_filter, decide_eq_true_iff]
  constructor
  · intro present
    exact ⟨chosen.subset present, List.mem_map_of_mem present⟩
  · rintro ⟨isMember, named⟩
    obtain ⟨other, present, sameName⟩ := List.mem_map.mp named
    obtain rfl := List.inj_on_of_nodup_map distinct (chosen.subset present)
      isMember sameName
    exact present

/-- An object that gives some of the members that settings are written as, in
any order and among any other members, is read as these settings, with the
standard ones for those that are left out. -/
theorem ofLiteral?_of_gives
    {config : ResolverConfig}
    {members : List (List TextUnit × Literal)}
    {given : List (String × Json)}
    (gives : Gives members given)
    (chosen : given.Subperm config.members) :
    ofLiteral? (.object members) =
      some (config.keeping (given.map Prod.fst)) := by
  have same := perm_members_selecting chosen
  rw [ofLiteral?,
    (readMembers?_nothing_eq_some_iff members _).mpr ⟨given, gives, same⟩,
    Option.map_some, complete_selecting]

/-- Settings that are all given are kept whole. -/
theorem keeping_of_perm
    {config : ResolverConfig}
    {given : List (String × Json)}
    (whole : given.Perm config.members) :
    config.keeping (given.map Prod.fst) = config := by
  have present (name : String) : name ∈ given.map Prod.fst ↔ name ∈ names :=
    (whole.map Prod.fst).mem_iff
  simp [keeping, present, names]

/-- What an object that is read gives, each setting at most once and by a value
of its type. -/
theorem exists_of_ofLiteral?
    {config : ResolverConfig}
    {members : List (List TextUnit × Literal)}
    (read : ofLiteral? (.object members) = some config) :
    ∃ given, Gives members given ∧ (given.map Prod.fst).Nodup ∧
      ∀ member ∈ given, Fits member.1 member.2 := by
  obtain ⟨after, taken, _⟩ := Option.map_eq_some_iff.mp read
  obtain ⟨given, gives, same⟩ := (readMembers?_nothing_eq_some_iff _ _).mp taken
  exact ⟨given, gives,
    (same.map Prod.fst).nodup_iff.mpr after.nodup_names_members,
    fun member present => Given.fits_of_mem_members (same.subset present)⟩

/-! ## Members that are refused -/

/-- Whether a member has this name. -/
def isNamed (name : String) (member : List TextUnit × Literal) : Bool :=
  Literal.textOf? member.1 = some name

section Gives

variable {members : List (List TextUnit × Literal)}
  {given : List (String × Json)}

/-- A setting is given as often as its name stands among the members. -/
theorem Gives.countP_isNamed
    (gives : Gives members given)
    {name : String}
    (known : name ∈ names) :
    members.countP (isNamed name) = (given.map Prod.fst).count name := by
  induction gives with
  | nothing => rfl
  | setting isName _ _ _ inductionHypothesis =>
      rw [List.countP_cons, List.map_cons, List.count_cons, inductionHypothesis]
      simp [isNamed, isName]
  | @unknown key literal other members given isName unknown _
      inductionHypothesis =>
      have different : other ≠ name := fun same => unknown (same ▸ known)
      rw [List.countP_cons, inductionHypothesis]
      simp [isNamed, isName, different]

/-- Each member with the name of a setting gives its value. -/
theorem Gives.exists_value
    (gives : Gives members given)
    {name : String}
    (known : name ∈ names)
    {member : List TextUnit × Literal}
    (present : member ∈ members)
    (named : isNamed name member = true) :
    ∃ value, member.2.value? = some value ∧ (name, value) ∈ given := by
  simp only [isNamed, decide_eq_true_iff] at named
  induction gives with
  | nothing => cases present
  | @setting key literal other value members given isName _ isValue _
      inductionHypothesis =>
      rcases List.mem_cons.mp present with rfl | later
      · obtain rfl := Option.some.inj (isName.symm.trans named)
        exact ⟨value, isValue, List.mem_cons_self⟩
      · obtain ⟨found, isFound, isGiven⟩ := inductionHypothesis later
        exact ⟨found, isFound, List.mem_cons_of_mem _ isGiven⟩
  | unknown isName unknown _ inductionHypothesis =>
      rcases List.mem_cons.mp present with rfl | later
      · obtain rfl := Option.some.inj (isName.symm.trans named)
        exact absurd known unknown
      · exact inductionHypothesis later

end Gives

/-- An object in which a setting is given twice is refused. -/
theorem ofLiteral?_of_repeated
    {name : String}
    (known : name ∈ names)
    {members : List (List TextUnit × Literal)}
    (repeated : 2 ≤ members.countP (isNamed name)) :
    ofLiteral? (.object members) = none := by
  refine Option.eq_none_iff_forall_ne_some.mpr fun config read => ?_
  obtain ⟨given, gives, distinct, _⟩ := exists_of_ofLiteral? read
  have once := List.nodup_iff_count_le_one.mp distinct name
  rw [gives.countP_isNamed known] at repeated
  omega

/-- An object in which a setting is given by a value of another type is
refused. -/
theorem ofLiteral?_of_unfit
    {name : String}
    (known : name ∈ names)
    {members : List (List TextUnit × Literal)}
    {member : List TextUnit × Literal}
    (present : member ∈ members)
    (named : isNamed name member = true)
    (unfit : ∀ value, member.2.value? = some value → ¬ Fits name value) :
    ofLiteral? (.object members) = none := by
  refine Option.eq_none_iff_forall_ne_some.mpr fun config read => ?_
  obtain ⟨given, gives, _, fits⟩ := exists_of_ofLiteral? read
  obtain ⟨value, isValue, isGiven⟩ := gives.exists_value known present named
  exact unfit value isValue (fits _ isGiven)

/-- Nothing can be null. -/
theorem not_fits_null (name : String) : ¬ Fits name .null := by
  unfold Fits
  split <;> simp

end ResolverConfig
end CommonJs
