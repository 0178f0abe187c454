import CommonJs.Proofs.Loading.Agreement
import CommonJs.Proofs.Loading.Stack
import CommonJs.Proofs.Path.Folding

/-!
# Data is taken, not run

A file whose name ends in `.json` holds data. Its load makes a record, reads
the file and ends: the record exports the value of the text, or the text has
no value and the record is taken away. No body is started on the way, for
whoever asks and in whichever words. The name `.json` itself is the exception:
its only dot comes first, so it has no extension, and the file is run.
-/

namespace CommonJs

/-! ## The ending of a name -/

namespace Path

/-- What comes after the last dot of a name is its extension, unless nothing
comes before that dot. -/
theorem extensionOf_append_dot
    {stem ending : List Char}
    (someStem : stem ≠ [])
    (noDot : '.' ∉ ending) :
    extensionOf (stem ++ '.' :: ending) = some ending := by
  obtain ⟨others, last, rfl⟩ :=
    (List.eq_nil_or_concat' stem).resolve_left someStem
  have plain : ∀ char ∈ ending.reverse, decide (char ≠ '.') = true := by
    intro char present
    rw [decide_eq_true_iff]
    rintro rfl
    exact noDot (List.mem_reverse.mp present)
  have reversed : (others ++ [last] ++ '.' :: ending).reverse =
      ending.reverse ++ '.' :: last :: others.reverse := by
    simp
  rw [extensionOf, reversed, List.dropWhile_append_of_pos plain,
    List.takeWhile_append_of_pos plain]
  simp

/-- The name that a path ends in has the ending of data, in any case of
letters. -/
def NamesData (path : Path) : Prop :=
  ∃ name, path.fileName = some name ∧ ".json".toList <:+ name.map Char.toLower

end Path

/-- A file whose name has the ending of data, and more than that, holds
data. -/
theorem Loading.isData_of_namesData
    {filename : Path}
    (named : filename.NamesData)
    (more : ∀ name, filename.fileName = some name →
      name.length ≠ ".json".length) :
    Loading.isData filename = true := by
  obtain ⟨name, isName, beginning, split⟩ := named
  have dotted : ".json".toList = '.' :: "json".toList := by decide
  rw [dotted] at split
  obtain ⟨stem, ending, rfl, _, isEnding⟩ :=
    List.map_eq_append_iff.mp split.symm
  obtain ⟨dot, extension, rfl, isDot, isExtension⟩ :=
    List.map_eq_cons_iff.mp isEnding
  obtain rfl := (Path.toLower_eq_iff (by decide) dot).mp isDot
  have noDot : '.' ∉ extension := by
    intro present
    have lowered := List.mem_map_of_mem (f := Char.toLower) present
    rw [isExtension] at lowered
    exact absurd lowered (by decide)
  have someStem : stem ≠ [] := by
    rintro rfl
    have length := congrArg List.length isExtension
    rw [List.length_map] at length
    exact more _ isName (congrArg Nat.succ length)
  have found : filename.extension = some extension := by
    rw [Path.extension, isName, Option.bind_some,
      Path.extensionOf_append_dot someStem noDot]
  simp only [Loading.isData, found, isExtension]
  rfl

/-! ## The load of a data file -/

namespace Loader

/-- What a text says as data becomes what a record exports. -/
def takeData
    (loader : Loader)
    (id : Nat)
    (filename : Path)
    (text : String) : Except LoadError Unit × Loader :=
  match Json.ofText? text with
  | none => (.error (.malformedJson filename), loader)
  | some json =>
      let (value, heap) := loader.workspace.heap.ofJson json
      (.ok (),
        Loader.setExports
          { loader with workspace := { loader.workspace with heap } } id value)

/-- The outcome of the load of a data file that has no record. -/
def loadData
    (loader : Loader)
    (filename : Path)
    (text : String) : Except LoadError Value × Loader :=
  let (id, opened) := loader.openRecord filename
  match opened.takeData id filename text with
  | (.ok _, taken) =>
      (.ok ((taken.finishRecord id).exportsOf id), taken.finishRecord id)
  | (.error error, taken) => (.error error, taken.dropRecord filename id)

section

variable (loader : Loader) {filename : Path} {text : String}

/-- The file of data is read, and no body is started. -/
theorem start_of_data
    (contents : loader.resolver.fileSystem.read filename = .ok text)
    (data : Loading.isData filename = true)
    (id : Nat) :
    loader.start id filename =
      (.closing id filename (loader.takeData id filename text).1,
        (loader.takeData id filename text).2) := by
  simp only [start, contents, data, if_true, takeData]
  cases Json.ofText? text <;> rfl

/-- To evaluate data is to take it as exports. -/
theorem run_evaluate_of_data
    (load : Path → Loading Value)
    (contents : loader.resolver.fileSystem.read filename = .ok text)
    (data : Loading.isData filename = true)
    (id : Nat)
    (exports : Value) :
    (Loading.evaluate load id ⟨filename, exports, false⟩).run loader =
      some (loader.takeData id filename text) := by
  rw [Loading.evaluate, run_get_bind]
  simp only [contents, data, if_true, takeData]
  cases Json.ofText? text <;> rfl

/-- To load data is to open a record, take the data and close the record. -/
theorem run_loadFresh_of_data
    (load : Path → Loading Value)
    (contents : loader.resolver.fileSystem.read filename = .ok text)
    (data : Loading.isData filename = true) :
    (Loading.loadFresh load filename).run loader =
      some (loader.loadData filename text) := by
  have evaluated :=
    run_evaluate_of_data (loader.openRecord filename).2 load contents data
      (loader.openRecord filename).1
        ((loader.openRecord filename).2.exportsOf
          (loader.openRecord filename).1)
  have opens : (set (loader.openRecord filename).2 : Loading PUnit).run loader =
      some (.ok ⟨⟩, (loader.openRecord filename).2) := rfl
  rw [Loading.loadFresh, run_get_bind]
  dsimp only
  rw [run_bind, opens]
  dsimp only [Option.bind_some]
  rw [run_bind, Loading.attempt, run_attempt, evaluated, Option.map_some,
    Option.bind_some]
  simp only [loadData]
  generalize
    (loader.openRecord filename).2.takeData (loader.openRecord filename).1
      filename text = outcome
  obtain ⟨result, taken⟩ := outcome
  cases result with
  | ok _ => rfl
  | error error => rfl

theorem close_takeData :
    ((loader.openRecord filename).2.takeData (loader.openRecord filename).1
          filename text).2.close
        (loader.openRecord filename).1 filename
        ((loader.openRecord filename).2.takeData (loader.openRecord filename).1
          filename text).1 =
      (.returning (loader.loadData filename text).1,
        (loader.loadData filename text).2) := by
  simp only [loadData]
  generalize
    (loader.openRecord filename).2.takeData (loader.openRecord filename).1
      filename text = outcome
  obtain ⟨result, taken⟩ := outcome
  cases result with
  | ok _ => rfl
  | error error => rfl

/-- Nothing is noted when data is taken. -/
theorem events_takeData (id : Nat) :
    (loader.takeData id filename text).2.events = loader.events := by
  unfold takeData
  cases Json.ofText? text <;> rfl

/-- A load that finds no record of a data file takes the data. -/
theorem run_load_of_data
    {path : Path}
    (uncached : loader.cached? path = none)
    (isFile : loader.resolver.fileSystem.canonicalize path = filename)
    (contents : loader.resolver.fileSystem.read filename = .ok text)
    (data : Loading.isData filename = true) :
    (Loading.load path).run loader = some (loader.loadData filename text) := by
  subst isFile
  rw [Loading.load, run_get_bind, Loading.loadWithin, run_get_bind]
  simp only [uncached]
  exact loader.run_loadFresh_of_data _ contents data

end

/-- After the load of a data file that had no record no body has been started.
If the text has a value, the file has a complete record that exports it; if
not, the load has failed in the name of the file, and there is no record. -/
structure TakesData
    (before : Loader)
    (path : Path)
    (text : String)
    (result : Except LoadError Value)
    (after : Loader) : Prop where
  /-- Nothing is noted. -/
  events : after.events = before.events
  /-- No body is started. -/
  runs : after.runs = before.runs
  /-- The value of the text is exported, and the record is complete. -/
  valid : ∀ json, Json.ofText? text = some json →
    ∃ id value,
      (value, after.workspace.heap) =
          before.newObject.2.workspace.heap.ofJson json ∧
        result = .ok value ∧
          after.cached? path = some id ∧
            after.record? id =
              some ⟨before.resolver.fileSystem.canonicalize path, value, true⟩
  /-- A text without a value leaves no record. -/
  malformed : Json.ofText? text = none →
    result =
        .error (.malformedJson (before.resolver.fileSystem.canonicalize path)) ∧
      after.cached? path = none

theorem record?_finishRecord_setExports
    (loader : Loader)
    {id : Nat}
    {record : ModuleRecord}
    (found : loader.record? id = some record)
    (value : Value) :
    ((loader.setExports id value).finishRecord id).record? id =
      some { record with exports := value, loaded := true } := by
  have found : loader.records[id]? = some record := found
  simp [record?, finishRecord, setExports, Array.getElem?_modify, found]

/-- What the load of data leaves is what its text says. -/
theorem takesData_loadData
    (loader : Loader)
    (path : Path)
    (text : String) :
    loader.TakesData path text
      (loader.loadData (loader.resolver.fileSystem.canonicalize path) text).1
      (loader.loadData (loader.resolver.fileSystem.canonicalize path)
        text).2 := by
  let filename := loader.resolver.fileSystem.canonicalize path
  have cached : (loader.openRecord filename).2.cache[filename.components]? =
      some loader.records.size := by
    rw [cache_openRecord, if_pos rfl]
  have found : (loader.openRecord filename).2.record? loader.records.size =
      some ⟨filename, loader.newObject.1, false⟩ := by
    simp [openRecord, record?, newObject]
  unfold loadData
  cases parsed : Json.ofText? text with
  | none =>
      simp only [takeData, parsed]
      refine ⟨rfl, rfl, fun json isValue => ?_, fun _ => ⟨rfl, ?_⟩⟩
      · cases parsed.symm.trans isValue
      · exact (cache_dropRecord cached filename.components).trans (if_pos rfl)
  | some json =>
      let made := loader.newObject.2.workspace.heap.ofJson json
      have exported := record?_finishRecord_setExports
        { (loader.openRecord filename).2 with
          workspace :=
            { (loader.openRecord filename).2.workspace with heap := made.2 } }
        found made.1
      simp only [takeData, parsed]
      refine ⟨rfl, rfl, fun other isValue => ?_, fun noValue => ?_⟩
      · obtain rfl := Option.some.inj (parsed.symm.trans isValue)
        refine ⟨loader.records.size, made.1, rfl, ?_, cached, exported⟩
        exact congrArg Except.ok
          (congrArg (fun record => (record.map (·.exports)).getD .undefined)
            exported)
      · cases parsed.symm.trans noValue

end Loader

/-- A file has its text under every spelling of its path. -/
theorem FileTree.read_canonicalize_eq_ok
    {tree : FileTree}
    (keyed : tree.Keyed)
    {path : Path}
    {text : String}
    (contents : tree.read path = .ok text) :
    tree.read (tree.canonicalize path) = .ok text := by
  unfold FileTree.read at contents ⊢
  rw [node?_canonicalize keyed]
  split at contents
  next found => exact contents
  next => cases contents
  next => cases contents

namespace Moment

open Relation (ReflTransGen)

/-! ## The steps of the load -/

/-- A step during which nothing is noted. The start of a body is noted. -/
def Silent (moment next : Moment) : Prop :=
  moment.step = some next ∧ next.loader.events = moment.loader.events

/-- Whichever bodies wait, a phase comes to an outcome without a note. -/
def ReturnsInSilence
    (loader : Loader)
    (phase : Phase)
    (result : Except LoadError Value)
    (after : Loader) : Prop :=
  ∀ waiting name,
    ReflTransGen Silent ⟨phase, waiting, name, loader⟩
      ⟨.returning result, waiting, name, after⟩

/-- Between the request for data and its value no operation and no body is
heard of. -/
theorem returnsInSilence_loadData
    {loader : Loader}
    {path filename : Path}
    {text : String}
    (uncached : loader.cached? path = none)
    (isFile : loader.resolver.fileSystem.canonicalize path = filename)
    (contents : loader.resolver.fileSystem.read filename = .ok text)
    (data : Loading.isData filename = true) :
    ReturnsInSilence loader (.loading path) (loader.loadData filename text).1
      (loader.loadData filename text).2 := by
  subst isFile
  intro waiting name
  let filename := loader.resolver.fileSystem.canonicalize path
  let opened := (loader.openRecord filename).2
  let taken := opened.takeData loader.records.size filename text
  have opens : Silent ⟨.loading path, waiting, name, loader⟩
      ⟨.opened loader.records.size filename, waiting, name, opened⟩ := by
    refine ⟨?_, rfl⟩
    simp only [step, Loader.look_eq_of_fresh uncached]
    rfl
  have takes : Silent
      ⟨.opened loader.records.size filename, waiting, name, opened⟩
      ⟨.closing loader.records.size filename taken.1, waiting, name, taken.2⟩ :=
    ⟨congrArg (fun next => some (become ⟨_, waiting, name, opened⟩ next))
      (opened.start_of_data contents data _), opened.events_takeData _⟩
  have closes : Silent
      ⟨.closing loader.records.size filename taken.1, waiting, name, taken.2⟩
      ⟨.returning (loader.loadData filename text).1, waiting, name,
        (loader.loadData filename text).2⟩ :=
    ⟨congrArg (fun next => some (become ⟨_, waiting, name, taken.2⟩ next))
      loader.close_takeData,
        (loader.takesData_loadData path text).events.trans
          (opened.events_takeData _).symm⟩
  exact .head opens (.head takes (.single closes))

/-- A request that leads to a file goes on with its load. -/
theorem ReturnsInSilence.of_resolve
    {loader after : Loader}
    {context : Path}
    {specifier : String}
    {origin : Option Path}
    {found : ResolveResult}
    {memo : DescriptorMemo}
    {target : Path}
    {result : Except LoadError Value}
    (resolved : loader.resolver.resolve loader.memo context specifier origin =
      some (found, memo))
    (leads : found.resolution = .path target)
    (returns :
      ReturnsInSilence { loader with memo } (.loading target) result after) :
    ReturnsInSilence loader (.requesting context specifier origin)
      result after := by
  intro waiting name
  have asks : Silent
      ⟨.requesting context specifier origin, waiting, name, loader⟩
      ⟨.loading target, waiting, name, { loader with memo }⟩ :=
    ⟨by simp [step, Loader.request, resolved, leads, become], rfl⟩
  exact .head asks (returns waiting name)

/-- A file whose name ends in `.json`, in any case of letters and with more
before it, is never run when it is asked for and has no record. In any state
of a loader over a tree:

* the file has a text, and its load takes what the text says as data;
* the outcome is returned without the start of a body, whichever bodies wait;
* so it is for each request whose specifier leads to the file, from outside
  and, by its phase, from a body. -/
theorem data_files_are_taken_not_run
    {tree : FileTree}
    (built : tree.Built)
    {loader : Loader}
    (overTree : loader.resolver.fileSystem = tree.toFileSystem)
    {path : Path}
    (isFile : tree.stat path = some .file)
    (uncached : loader.cached? path = none)
    (named : (tree.canonicalize path).NamesData)
    (more : ∀ name, (tree.canonicalize path).fileName = some name →
      name.length ≠ ".json".length) :
    ∃ text,
      tree.read path = .ok text ∧
        (∃ result after,
          loader.TakesData path text result after ∧
            ReturnsInSilence loader (.loading path) result after ∧
              ∀ name,
                loader.perform (.requireModule (some path) name) =
                  some (after.conclude name result)) ∧
          ∀ context specifier origin found memo target,
            loader.resolver.resolve loader.memo context specifier origin =
                some (found, memo) →
              found.resolution = .path target →
                tree.canonicalize target = tree.canonicalize path →
                  ∃ result after,
                    Loader.TakesData { loader with memo } path text
                        result after ∧
                      ReturnsInSilence loader
                        (.requesting context specifier origin) result after ∧
                        (origin = none → ∀ name,
                          loader.perform (.requireFrom context specifier name) =
                            some (after.conclude name result)) := by
  have data := Loading.isData_of_namesData named more
  have canonicalize (other : Path) :
      loader.resolver.fileSystem.canonicalize other =
        tree.canonicalize other := by
    rw [overTree]
    rfl
  obtain ⟨text, read⟩ := FileTree.read_eq_ok_of_stat isFile
  have contents : loader.resolver.fileSystem.read (tree.canonicalize path) =
      .ok text := by
    rw [overTree]
    exact FileTree.read_canonicalize_eq_ok built.keyed read
  refine ⟨text, read, ?_, ?_⟩
  · have runs :=
      loader.run_load_of_data uncached (canonicalize path) contents data
    have takes := loader.takesData_loadData path text
    rw [canonicalize] at takes
    refine ⟨_, _, takes,
      returnsInSilence_loadData uncached (canonicalize path) contents data,
        fun name => ?_⟩
    rw [Loader.perform, Loader.answerLoading_eq, runs, Option.map_some]
  · intro context specifier origin found memo target resolved leads same
    let remembering : Loader := { loader with memo }
    have isTarget : remembering.resolver.fileSystem.canonicalize target =
        tree.canonicalize path := (canonicalize target).trans same
    have targetUncached : remembering.cached? target = none := by
      have uncached : loader.cached? path = none := uncached
      rw [Loader.cached?, canonicalize, ← same, ← canonicalize] at uncached
      exact uncached
    have runs :=
      remembering.run_load_of_data targetUncached isTarget contents data
    have takes := remembering.takesData_loadData path text
    rw [show remembering.resolver.fileSystem.canonicalize path =
        tree.canonicalize path from
      canonicalize path] at takes
    refine ⟨_, _, takes,
      .of_resolve resolved leads
        (returnsInSilence_loadData targetUncached isTarget contents data), ?_⟩
    rintro rfl name
    rw [Loader.perform, Loader.answerLoading_eq,
      Loading.run_require Loading.load resolved]
    simp only [ResolveResult.located, leads]
    exact congrArg _ runs

/-- Data under a name with several dots and letters in upper case. -/
def dottedData : FileTree :=
  FileTree.empty.insertFile (.ofString "/p/.a.b.JSON")
    "\x7b\"answer\": [42, null]\x7d"

/-- A name may have several points and any case. -/
theorem data_files_are_taken_not_run_dottedData :
    ∃ value after id record,
      (Loader.new ⟨dottedData.toFileSystem, .standard⟩ []).perform
          (.requireFrom (.ofString "/") "./p/.a.b.JSON" none) =
            some (.value value, after) ∧
        after.events = #[] ∧
          after.cached? (.ofString "/p/.a.b.JSON") = some id ∧
            after.record? id = some record ∧ record.loaded = true ∧
              record.exports = value := by
  let loader := Loader.new ⟨dottedData.toFileSystem, .standard⟩ []
  have built : dottedData.Built := .insertFile _ _ .empty
  have isFile : dottedData.stat (.ofString "/p/.a.b.JSON") = some .file := by
    decide +kernel
  have uncached : loader.cached? (.ofString "/p/.a.b.JSON") = none := by
    decide +kernel
  have isName : (dottedData.canonicalize (.ofString "/p/.a.b.JSON")).fileName =
      some ".a.b.JSON".toList := by
    decide +kernel
  have named : (dottedData.canonicalize (.ofString "/p/.a.b.JSON")).NamesData :=
    ⟨_, isName, by decide +kernel⟩
  have more (name : List Char)
      (same : (dottedData.canonicalize (.ofString "/p/.a.b.JSON")).fileName =
        some name) :
      name.length ≠ ".json".length := by
    obtain rfl := Option.some.inj (isName.symm.trans same)
    decide +kernel
  have leads : (loader.resolver.resolve loader.memo (.ofString "/")
        "./p/.a.b.JSON" none).map
      (·.1.resolution) = some (.path (.ofString "/p/.a.b.JSON")) := by
    decide +kernel
  obtain ⟨⟨found, memo⟩, resolved, isPath⟩ := Option.map_eq_some_iff.mp leads
  obtain ⟨text, read, _, requests⟩ :=
    data_files_are_taken_not_run built
      (show loader.resolver.fileSystem = _ from rfl) isFile uncached named more
  obtain ⟨result, after, takes, _, performs⟩ :=
    requests _ _ _ _ _ _ resolved isPath rfl
  have isText : dottedData.read (.ofString "/p/.a.b.JSON") =
      .ok "\x7b\"answer\": [42, null]\x7d" := by
    decide +kernel
  obtain rfl := Except.ok.inj (read.symm.trans isText)
  have parses : (Json.ofText? "\x7b\"answer\": [42, null]\x7d").isSome =
      true := by decide +kernel
  obtain ⟨json, parsed⟩ := Option.isSome_iff_exists.mp parses
  obtain ⟨id, value, _, rfl, isCached, isRecord⟩ := takes.valid json parsed
  exact ⟨value, after, id, _, performs rfl none, takes.events, isCached,
    isRecord, rfl, rfl⟩

/-- Data whose file has no name before the ending. -/
def namelessData : FileTree :=
  FileTree.empty.insertFile (.ofString "/p/.json") "\x7b\"answer\": 42\x7d"

/-- A file with the name `.json` is run although its name ends so and its text
is data. -/
theorem data_file_is_run_namelessData :
    namelessData.stat (.ofString "/p/.json") = some .file ∧
      (namelessData.canonicalize (.ofString "/p/.json")).NamesData ∧
        (Json.ofText? "\x7b\"answer\": 42\x7d").isSome = true ∧
          namelessData.read (.ofString "/p/.json") =
              .ok "\x7b\"answer\": 42\x7d" ∧
            (Loader.new ⟨namelessData.toFileSystem, .standard⟩ []).cached?
                (.ofString "/p/.json") = none ∧
              ((Loader.new ⟨namelessData.toFileSystem, .standard⟩ []).perform
                  (.requireModule (some (.ofString "/p/.json")) none)).map
                (fun outcome => outcome.2.starts (.ofString "/p/.json")) =
                  some 1 := by
  have isName : (namelessData.canonicalize (.ofString "/p/.json")).fileName =
      some ".json".toList := by
    decide +kernel
  refine ⟨by decide +kernel, ⟨_, isName, by decide +kernel⟩, by decide +kernel,
    by decide +kernel, by decide +kernel, by decide +kernel⟩

end Moment
end CommonJs
