import CommonJs.Proofs.Json.Accepted
import CommonJs.Proofs.Json.Written
import CommonJs.Proofs.Settings.Members
import CommonJs.Proofs.Text.Utf8
import CommonJs.Settings

/-!
# Settings that are loaded

Settings that are written, on one line or over several, are read back. How a
text is read depends on the members of its object alone, not on their order
nor on what stands between them; and what is loaded for a working directory
depends on what its file holds, with an error for each way in which that is
no text or gives no settings.
-/

namespace CommonJs
namespace ResolverConfig

/-! ## Settings that are written -/

/-- The value is written as a literal that has this value. -/
def WritesBack (value : Json) : Prop :=
  ∃ literal, Json.WrittenAs value literal ∧ literal.value? = some value

theorem writesBack_string (text : String) : WritesBack (.string text) :=
  ⟨_, .string text,
    by rw [Literal.value?, Json.textOf?_unitsOf, Option.map_some]⟩

theorem writesBack_bool (flag : Bool) : WritesBack (.bool flag) :=
  ⟨_, .bool flag, rfl⟩

/-- An array is read back if its items are. -/
theorem writesBack_array
    {items : List Json}
    (writes : ∀ item ∈ items, WritesBack item) : WritesBack (.array items) := by
  have written : ∃ literals,
      List.Forall₂ (fun literal item => Json.WrittenAs item literal)
          literals items ∧
        Literal.valuesOfItems? literals = some items := by
    induction items with
    | nil => exact ⟨[], .nil, rfl⟩
    | cons item items inductionHypothesis =>
        obtain ⟨⟨literal, isWritten, isValue⟩, others⟩ :=
          List.forall_mem_cons.mp writes
        obtain ⟨literals, areWritten, areValues⟩ := inductionHypothesis others
        exact ⟨literal :: literals, .cons isWritten areWritten,
          by simp [Literal.valuesOfItems?, isValue, areValues]⟩
  obtain ⟨literals, areWritten, areValues⟩ := written
  exact ⟨_, .array areWritten,
    by rw [Literal.value?, areValues, Option.map_some]⟩

/-- Every member of settings has a known name and is read back. -/
theorem name_mem_and_writesBack
    {config : ResolverConfig}
    {member : String × Json}
    (present : member ∈ config.members) :
    member.1 ∈ names ∧ WritesBack member.2 := by
  have texts (texts : List String) : WritesBack (.array (texts.map .string)) :=
    writesBack_array
      (List.forall_mem_map.mpr fun text _ => writesBack_string text)
  simp only [members, List.mem_cons, List.not_mem_nil, or_false] at present
  rcases present with rfl | rfl | rfl | rfl
  · exact ⟨by simp [names], texts _⟩
  · exact ⟨by simp [names], texts _⟩
  · exact ⟨by simp [names], writesBack_string _⟩
  · exact ⟨by simp [names], writesBack_bool _⟩

/-- Settings are written as an object whose members give them. -/
theorem exists_writtenAs_toJson (config : ResolverConfig) :
    ∃ literals, Json.WrittenAs config.toJson (.object literals) ∧
      Gives literals config.members := by
  have written : ∀ given : List (String × Json),
      (∀ member ∈ given, member.1 ∈ names ∧ WritesBack member.2) →
        ∃ literals, List.Forall₂ (fun literal member =>
          literal.1 = Json.unitsOf member.1 ∧ Json.WrittenAs member.2 literal.2)
              literals given ∧
            Gives literals given := by
    intro given each
    induction given with
    | nil => exact ⟨[], .nil, .nothing⟩
    | cons member given inductionHypothesis =>
        obtain ⟨⟨known, literal, isWritten, isValue⟩, others⟩ :=
          List.forall_mem_cons.mp each
        obtain ⟨literals, areWritten, gives⟩ := inductionHypothesis others
        exact ⟨(Json.unitsOf member.1, literal) :: literals,
          .cons ⟨rfl, isWritten⟩ areWritten,
          .setting (Json.textOf?_unitsOf member.1) known isValue gives⟩
  obtain ⟨literals, areWritten, gives⟩ :=
    written config.members fun _ => name_mem_and_writesBack
  rw [toJson]
  exact ⟨literals, .object areWritten, gives⟩

/-! ## Texts that are read -/

/-- How a text is read by the members of its object: by their names, whatever
their order and whatever members of other names stand between them. -/
structure ReadsByName
    (members : List (List TextUnit × Literal))
    (text : String) : Prop where
  /-- All settings are given. -/
  whole : ∀ (config : ResolverConfig) (given : List (String × Json)),
    Gives members given → given.Perm config.members → ofText? text = some config
  /-- Some settings are given, and the others are the usual ones. -/
  chosen : ∀ (config : ResolverConfig) (given : List (String × Json)),
    Gives members given → given.Subperm config.members →
      ofText? text = some (config.keeping (given.map Prod.fst))
  /-- No setting may be given twice. -/
  repeated : ∀ name ∈ names, 2 ≤ members.countP (isNamed name) →
    ofText? text = none
  /-- No setting may be null. -/
  null : ∀ name ∈ names, ∀ member ∈ members,
    isNamed name member = true → member.2 = .null → ofText? text = none
  /-- No setting may have a value of another type. -/
  unfit : ∀ name ∈ names, ∀ member ∈ members, isNamed name member = true →
    (∀ value, member.2.value? = some value → ¬ Fits name value) →
      ofText? text = none

/-- The members of an object are read by their names alone. -/
theorem readsByName
    {members : List (List TextUnit × Literal)}
    {text : String}
    (isText : Literal.IsText (.object members) text) :
    ReadsByName members text := by
  have isObject : ofText? text = ofLiteral? (.object members) := by
    rw [ofText?, isText.ofChars?, Option.bind_some]
  constructor
  · intro config given gives same
    rw [isObject, ofLiteral?_of_gives gives same.subperm, keeping_of_perm same]
  · intro config given gives part
    rw [isObject, ofLiteral?_of_gives gives part]
  · intro name known repeated
    rw [isObject, ofLiteral?_of_repeated known repeated]
  · intro name known member present named isNull
    rw [isObject, ofLiteral?_of_unfit known present named]
    intro value isValue
    rw [isNull, Literal.value?, Option.some.injEq] at isValue
    exact isValue ▸ not_fits_null name
  · intro name known member present named unfit
    rw [isObject, ofLiteral?_of_unfit known present named unfit]

/-- What is no JSON gives no settings. -/
theorem ofText?_of_not_isText
    {text : String}
    (noText : ∀ literal, ¬ Literal.IsText literal text) :
    ofText? text = none := by
  refine Option.eq_none_iff_forall_ne_some.mpr fun config read => ?_
  obtain ⟨literal, isRead, _⟩ := Option.bind_eq_some_iff.mp read
  exact noText literal ((Literal.ofChars?_eq_some_iff text literal).mp isRead)

end ResolverConfig

namespace Settings

/-! ## Files that are loaded -/

/-- What is loaded for a working directory by what reading its file comes to.
The settings that no file changes are those of a run that asks for nothing. -/
structure LoadsFile
    (readBytes : Path → Except ReadError (List UInt8))
    (workingDirectory : Path) : Prop where
  /-- Without a file the settings are the usual ones. -/
  missing :
    readBytes (workingDirectory.child fileName) = .error .missing →
      load readBytes workingDirectory =
        .ok ⟨workingDirectory, false, 0, .standard⟩
  /-- A file that cannot be read is named. -/
  unreadable : ∀ cause ≠ .missing,
    readBytes (workingDirectory.child fileName) = .error cause →
      load readBytes workingDirectory =
        .error (.unreadable (workingDirectory.child fileName))
  /-- So is one that does not hold a text. -/
  noText : ∀ bytes, (∀ text, bytes ≠ Text.utf8 text) →
    readBytes (workingDirectory.child fileName) = .ok bytes →
      load readBytes workingDirectory =
        .error (.unreadable (workingDirectory.child fileName))
  /-- So is one whose text gives no settings. -/
  malformed : ∀ text, ResolverConfig.ofText? text = none →
    readBytes (workingDirectory.child fileName) = .ok (Text.utf8 text) →
      load readBytes workingDirectory =
        .error (.malformed (workingDirectory.child fileName))
  /-- The settings of the file hold. -/
  given : ∀ text config, ResolverConfig.ofText? text = some config →
    readBytes (workingDirectory.child fileName) = .ok (Text.utf8 text) →
      load readBytes workingDirectory = .ok ⟨workingDirectory, false, 0, config⟩

/-- Each way to read the file is answered for itself. -/
theorem loadsFile
    (readBytes : Path → Except ReadError (List UInt8))
    (workingDirectory : Path) : LoadsFile readBytes workingDirectory := by
  constructor
  · intro isMissing
    rw [load, readResolver, isMissing]
    rfl
  · intro cause notMissing failed
    rw [load, readResolver, failed]
    cases cause <;> first | exact absurd rfl notMissing | rfl
  · intro bytes noText held
    have notRead : Text.ofUtf8? bytes = none :=
      Option.eq_none_iff_forall_ne_some.mpr fun text read =>
        noText text ((Text.ofUtf8?_eq_some_iff bytes text).mp read)
    simp only [load, readResolver, held, notRead]
    rfl
  · intro text refused held
    have read := (Text.ofUtf8?_eq_some_iff (Text.utf8 text) text).mpr rfl
    simp only [load, readResolver, held, read, refused]
    rfl
  · intro text config isGiven held
    have read := (Text.ofUtf8?_eq_some_iff (Text.utf8 text) text).mpr rfl
    simp only [load, readResolver, held, read, isGiven]
    rfl

/-- What is loaded on a host by what stands where the path of the file leads:
nothing at all, a directory, or a file, which is read whole. -/
structure LoadsHosted (tree : HostTree) (workingDirectory : Path) : Prop where
  /-- Where nothing stands, the settings are the usual ones. -/
  nothing : ∀ place,
    tree.locate (workingDirectory.child fileName) = .ok place →
      tree.entry? place = none →
      load tree.readBytes workingDirectory =
        .ok ⟨workingDirectory, false, 0, .standard⟩
  /-- A directory cannot be read. -/
  directory : ∀ place,
    tree.locate (workingDirectory.child fileName) = .ok place →
      tree.entry? place = some .directory →
        load tree.readBytes workingDirectory =
          .error (.unreadable (workingDirectory.child fileName))
  /-- Of a file the bytes count. -/
  file : ∀ place bytes,
    tree.locate (workingDirectory.child fileName) = .ok place →
      tree.entry? place = some (.file bytes) →
        load tree.readBytes workingDirectory =
          load (fun _ => .ok bytes) workingDirectory

/-- What a host reads at a path, by what stands where the path leads. -/
theorem readBytes_of_locate
    {tree : HostTree}
    {path : Path}
    {place : HostTree.Place}
    (leads : tree.locate path = .ok place) :
    (tree.entry? place = none → tree.readBytes path = .error .missing) ∧
    (tree.entry? place = some .directory →
      tree.readBytes path = .error .isDirectory) ∧
    ∀ bytes, tree.entry? place = some (.file bytes) →
      tree.readBytes path = .ok bytes := by
  rw [HostTree.readBytes, HostTree.find?, leads]
  refine ⟨fun stands => ?_, fun stands => ?_, fun bytes stands => ?_⟩
  all_goals simp [bind, Except.bind, stands]

/-- A host reads a file as what stands where its path leads. -/
theorem loadsHosted (tree : HostTree) (workingDirectory : Path) :
    LoadsHosted tree workingDirectory := by
  have loads := loadsFile tree.readBytes workingDirectory
  constructor
  · intro place leads stands
    exact loads.missing ((readBytes_of_locate leads).1 stands)
  · intro place leads stands
    exact loads.unreadable .isDirectory (by decide)
      ((readBytes_of_locate leads).2.1 stands)
  · intro place bytes leads stands
    have held := (readBytes_of_locate leads).2.2 bytes stands
    rw [load, load, readResolver, readResolver, held]

/-- Settings that are written are read back. A text that is JSON with an
object is read by the names of its members, with the standard settings for
those that are left out, and no text is read that is not JSON. What is loaded
for a working directory is what its file gives. -/
theorem settings_read_by_name_and_loaded :
    (∀ config : ResolverConfig,
      ResolverConfig.ofText? config.toJson.compact = some config ∧
        ResolverConfig.ofText? config.toJson.pretty = some config) ∧
    (∀ members text, Literal.IsText (.object members) text →
      ResolverConfig.ReadsByName members text) ∧
    (∀ text, (∀ literal, ¬ Literal.IsText literal text) →
      ResolverConfig.ofText? text = none) ∧
    (∀ readBytes workingDirectory, LoadsFile readBytes workingDirectory) ∧
    ∀ tree workingDirectory, LoadsHosted tree workingDirectory := by
  refine ⟨fun config => ?_, fun members text isText => ?_, fun text noText =>
    ?_, loadsFile, loadsHosted⟩
  · obtain ⟨literals, written, gives⟩ := config.exists_writtenAs_toJson
    obtain ⟨compact, pretty⟩ := written.isText
    exact ⟨(ResolverConfig.readsByName compact).whole config _ gives (.refl _),
      (ResolverConfig.readsByName pretty).whole config _ gives (.refl _)⟩
  · exact ResolverConfig.readsByName isText
  · exact ResolverConfig.ofText?_of_not_isText noText

/-- A host that has nothing but this under the name of the file, at the root. -/
def hostWith (entry : HostTree.Entry) : HostTree where
  entries :=
    (∅ : PathMap HostTree.Entry).insert [.root, .name fileName.toList] entry
  workingDirectory := .ofString "/"

theorem stands_hostWith (entry : HostTree.Entry) :
    HostTree.entry? (hostWith entry) [fileName.toList] = some entry := by
  rfl

/-- At the root, the path of the file leads to its name, unless a link stands
there. -/
theorem locate_child_root
    {tree : HostTree}
    (atRoot : tree.workingDirectory = .ofString "/")
    (noLink : ∀ target, tree.entry? [fileName.toList] ≠ some (.link target)) :
    tree.locate ((Path.ofString "/").child fileName) =
      .ok [fileName.toList] := by
  have segments :
      Path.segments ((Path.ofString "/").join
          ((Path.ofString "/").child fileName)).chars =
        [[], fileName.toList] := by rfl
  have noStep : Path.stepOf [] = none := rfl
  have step : Path.stepOf fileName.toList = some (.name fileName.toList) := by
    rfl
  have goodName : HostTree.isBadName fileName.toList = false := by rfl
  have root : tree.entry? [] = some .directory := rfl
  rw [HostTree.locate, if_neg (by decide), HostTree.follow, if_neg (by decide),
    if_neg (by decide), atRoot, segments]
  simp only [HostTree.walk, root, noStep, step, goodName]
  cases stands : tree.entry? [fileName.toList] with
  | none => rfl
  | some entry =>
      cases entry with
      | link target => exact absurd stands (noLink target)
      | _ => rfl

/-- Members in another order, with one that is unknown, are settings as well. -/
theorem settings_read_by_name_and_loaded_reorderedMembers :
    let directory : Path := .ofString "/"
    let text := "\x7b \"browser\": false, \"note\": [1e999, \"\\ud800\"],
      \"\\u0065xtensions\": [\".cjs\"] \x7d"
    ResolverConfig.ofText? "\x7b\"browser\":true,\"browser\":true\x7d" = none ∧
      ResolverConfig.ofText? "\x7b\"manifest\":null\x7d" = none ∧
      ResolverConfig.ofText? "\x7b\"extensions\":[\".js\",true]\x7d" = none ∧
      load (fun _ => .ok (Text.utf8 text)) directory =
        .ok ⟨directory, false, 0, [".cjs"], ["node_modules"],
          "package.json", false⟩ ∧
      load (fun _ => .ok (Text.utf8 "\x7b not json")) directory =
        .error (.malformed (directory.child fileName)) ∧
      load (fun _ => .ok [0xFF]) directory =
        .error (.unreadable (directory.child fileName)) ∧
      load (fun _ => .error .isDirectory) directory =
        .error (.unreadable (directory.child fileName)) ∧
      load (fun _ => .error .missing) directory =
        .ok ⟨directory, false, 0, .standard⟩ ∧
      load (⟨∅, directory⟩ : HostTree).readBytes directory =
        .ok ⟨directory, false, 0, .standard⟩ ∧
      load (hostWith .directory).readBytes directory =
        .error (.unreadable (directory.child fileName)) ∧
      load (hostWith (.file (Text.utf8 text))).readBytes directory =
        .ok ⟨directory, false, 0, [".cjs"], ["node_modules"], "package.json",
          false⟩ := by
  intro directory text
  obtain ⟨_, byName, refused, loads, hosted⟩ := settings_read_by_name_and_loaded
  have twice : Literal.IsText
      (.object [("browser".toList.map .char, .bool true),
        ("browser".toList.map .char, .bool true)])
      "\x7b\"browser\":true,\"browser\":true\x7d" :=
    (Literal.ofChars?_eq_some_iff _ _).mp
      (by simp only [String.reduceToList]; rfl)
  have null : Literal.IsText (.object [("manifest".toList.map .char, .null)])
      "\x7b\"manifest\":null\x7d" :=
    (Literal.ofChars?_eq_some_iff _ _).mp
      (by simp only [String.reduceToList]; rfl)
  have unfit : Literal.IsText (.object [("extensions".toList.map .char,
        .array [.string (".js".toList.map .char), .bool true])])
      "\x7b\"extensions\":[\".js\",true]\x7d" :=
    (Literal.ofChars?_eq_some_iff _ _).mp
      (by simp only [String.reduceToList]; rfl)
  have reordered : Literal.IsText
      (.object [("browser".toList.map .char, .bool false),
        ("note".toList.map .char,
          .array [.number ⟨false, ['1'], [], some (false, ['9', '9', '9'])⟩,
            .string [.code 0xD800]]),
        (.code 0x65 :: "xtensions".toList.map .char,
          .array [.string (".cjs".toList.map .char)])]) text :=
    (Literal.ofChars?_eq_some_iff _ _).mp
      (by simp only [text, String.reduceToList]; rfl)
  have noJson : ∀ literal, ¬ Literal.IsText literal "\x7b not json" := by
    intro literal isText
    have read : Literal.ofChars? "\x7b not json".toList = none := by
      simp only [String.reduceToList]
      rfl
    rw [isText.ofChars?] at read
    cases read
  have chosen : ResolverConfig.ofText? text =
      some ⟨[".cjs"], ["node_modules"], "package.json", false⟩ := by
    refine ((byName _ _ reordered).chosen
      ⟨[".cjs"], ["lib"], "module.json", false⟩ [("browser", .bool false),
        ("extensions", .array [.string ".cjs"])] ?_ ?_).trans rfl
    · refine .setting (by rfl) (by decide) rfl ?_
      refine .unknown
        (by rfl : Literal.textOf? ("note".toList.map .char) = some "note")
        (by decide) ?_
      exact .setting (by rfl) (by decide) (by rfl) .nothing
    · exact ⟨_, .swap _ _ _,
        .cons_cons _ (.cons _ (.cons _ (.cons_cons _ .slnil)))⟩
  have nothing : HostTree.entry? ⟨∅, directory⟩ [fileName.toList] = none := rfl
  refine ⟨(byName _ _ twice).repeated "browser" (by decide) (by decide),
    (byName _ _ null).null "manifest" (by decide) _ List.mem_cons_self
      (by decide) rfl,
    (byName _ _ unfit).unfit "extensions" (by decide) _ List.mem_cons_self
      (by decide) ?_,
    (loads _ _).given text _ chosen rfl,
    (loads _ _).malformed _ (refused _ noJson) rfl, (loads _ _).noText _ ?_ rfl,
    (loads _ _).unreadable .isDirectory (by decide) rfl,
    (loads _ _).missing rfl,
    (hosted _ _).nothing [fileName.toList]
      (locate_child_root rfl (by simp [nothing])) nothing,
    (hosted _ _).directory [fileName.toList]
      (locate_child_root rfl (by simp [stands_hostWith])) (stands_hostWith _),
    ((hosted _ _).file [fileName.toList] _
      (locate_child_root rfl (by simp [stands_hostWith]))
      (stands_hostWith _)).trans
      ((loads _ _).given text _ chosen rfl)⟩
  · rintro _ isValue ⟨texts, rfl⟩
    have notTexts : ResolverConfig.readTexts?
        (.array [.string (".js".toList.map .char), .bool true]) = none := by rfl
    rw [← ResolverConfig.readTexts?_eq_some_iff, notTexts] at isValue
    cases isValue
  · intro other isText
    have notRead : Text.ofUtf8? [0xFF] = none := by rfl
    rw [(Text.ofUtf8?_eq_some_iff _ other).mpr isText] at notRead
    cases notRead

end Settings
end CommonJs
