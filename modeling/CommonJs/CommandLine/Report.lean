import CommonJs.Json.Printer
import CommonJs.Resolver.Basic
import CommonJs.Settings
import CommonJs.Version
import CommonJs.CommandLine.Help

/-!
# Reports of the command line

Each command ends with an exit code and prints lines, which are its report
for people or, if JSON is asked for, one JSON value over several lines. A
specifier that leads nowhere is a failure, which only JSON reports on; any
other failure is told on the side.
-/

namespace CommonJs
namespace CommandLine

/-- How a run of the tool ends: its exit code, what it prints, and what it
complains of on the side. -/
structure Outcome where
  /-- The exit code. -/
  code : Nat
  /-- The text on the standard output. -/
  output : String
  /-- The text on the standard error stream. -/
  complaint : String
  deriving DecidableEq

/-- Lines as one text. -/
def ofLines (lines : List String) : String :=
  String.join (lines.map (· ++ "\n"))

namespace Outcome

/-- A run without failure that prints lines. -/
def success (lines : List String) : Outcome := ⟨0, ofLines lines, ""⟩

/-- A run that fails and prints nothing but its complaint. -/
def failure (lines : List String) : Outcome := ⟨1, "", ofLines lines⟩

/-- A run that is not understood. -/
def misuse : Outcome :=
  ⟨2, "", ofLines ["These arguments are not understood; try --help."]⟩

end Outcome

/-- A text, or null. -/
def optionalText : Option String → Json
  | some text => .string text
  | none => .null

def pathText (path : Path) : Json :=
  .string path.toString

/-- The report on a request to resolve. -/
def resolveJson
    (specifier : String)
    (context : Path)
    (result : ResolveResult) : Json :=
  let (status, path) :=
    match result.resolution with
    | .path path => ("resolved", some path.toString)
    | .stub => ("stub", none)
    | .unresolved _ => ("unresolved", none)
  .object
    [("specifier", .string specifier),
      ("context", pathText context),
      ("status", .string status),
      ("path", optionalText path),
      ("reason", optionalText (result.resolution.reason?.map Reason.code)),
      ("tried", .array (result.tried.map pathText))]

/-- The complaint about a specifier that leads nowhere. -/
def unresolvedLines
    (specifier : String)
    (context : Path)
    (tried : List Path) : List String :=
  ("Cannot find module " ++ specifier ++ " from " ++ context.toString) ::
    tried.map fun place => "  tried " ++ place.toString

/-- A resolution as a run that ends. -/
def resolveOutcome
    (json : Bool)
    (specifier : String)
    (context : Path)
    (result : ResolveResult) : Outcome :=
  let report := (resolveJson specifier context result).pretty
  match result.resolution, json with
  | .unresolved _, true => { Outcome.success [report] with code := 1 }
  | .unresolved _, false =>
      .failure (unresolvedLines specifier context result.tried)
  | _, true => .success [report]
  | .path path, false => .success [path.toString]
  | .stub, false => .success ["stub"]

/-- The target of an entry as JSON. -/
def targetJson : BrowserTarget → Json
  | .path specifier => .string specifier
  | .stub => .bool false

/-- The target of an entry for people. -/
def targetText : BrowserTarget → String
  | .path specifier => specifier
  | .stub => "(stub)"

/-- The report on a package, with sorted keys throughout. -/
def descriptorJson (descriptor : PackageDescriptor) : Json :=
  let files :=
    descriptor.browser.fileEntries.map fun entry =>
      (entry.1.toString, targetJson entry.2)
  let modules :=
    descriptor.browser.moduleEntries.map fun entry =>
      (entry.1, targetJson entry.2)
  .object
    [("browser",
        .object
          [("files", .object (Json.sortMembers files)),
            ("main", (descriptor.browser.main.map targetJson).getD .null),
            ("modules", .object (Json.sortMembers modules))]),
      ("directory", pathText descriptor.directory),
      ("main", optionalText descriptor.main),
      ("name", optionalText descriptor.name)]

/-- Entries in ascending order of their keys; where a key stands for a file
and for a module, the file comes first. -/
def sortEntries
    (entries : List (String × BrowserTarget)) : List (String × BrowserTarget) :=
  entries.mergeSort fun first second => !decide (second.1 < first.1)

/-- The lines on a package for people. -/
def descriptorLines (descriptor : PackageDescriptor) : List String :=
  let map := descriptor.browser
  let heading :=
    ["directory: " ++ descriptor.directory.toString,
      "name:      " ++ descriptor.name.getD "-",
      "main:      " ++ descriptor.main.getD "-"]
  let files := map.fileEntries.map fun entry => (entry.1.toString, entry.2)
  let mainLine :=
    map.main.toList.map fun target => "  (main) -> " ++ targetText target
  let entryLines :=
    (sortEntries (files ++ map.moduleEntries)).map fun entry =>
      "  " ++ entry.1 ++ " -> " ++ targetText entry.2
  if map.isEmpty then heading
  else heading ++ ["browser:"] ++ mainLine ++ entryLines

/-- The report on the package around a directory. -/
def describeOutcome
    (json : Bool)
    (directory : Path) :
    Option PackageDescriptor → Outcome
  | descriptor =>
      if json then
        .success
          [(Json.object
            [("package", (descriptor.map descriptorJson).getD .null),
              ("query", pathText directory)]).pretty]
      else
        match descriptor with
        | some descriptor => .success (descriptorLines descriptor)
        | none => .success ["no package found for " ++ directory.toString]

/-- The report on the version. -/
def versionOutcome (json : Bool) : Outcome :=
  if json then .success [VersionInfo.current.toJson.pretty]
  else .success [VersionInfo.current.text]

/-- An extension as it is tried: with a dot in front. -/
def dotted (extension : String) : String :=
  if extension.startsWith "." then extension else "." ++ extension

/-- A directory as it is read from the working directory. -/
def within (workingDirectory : Path) : Option Path → Path
  | some directory => workingDirectory.join directory
  | none => workingDirectory

/-- The settings of resolution with those of a request. -/
def requestedConfig
    (config : ResolverConfig)
    (request : ResolveRequest) : ResolverConfig :=
  { config with
    extensions :=
      if request.extensions = [] then config.extensions
      else request.extensions.map dotted
    browser := config.browser && !request.noBrowser }

/-- Carry out a request to resolve, listing at most `limit` places. -/
def answer
    (fileSystem : FileSystem)
    (settings : Settings)
    (limit : Option Nat)
    (request : ResolveRequest) : Option (ResolveResult × DescriptorMemo) :=
  let resolver : Resolver :=
    ⟨fileSystem, requestedConfig settings.resolver request⟩
  resolver.resolveWithin resolver.nestingLimit limit .empty
    (within settings.workingDirectory request.context)
    request.specifier
    (request.origin.map settings.workingDirectory.join)

/-- Run a command with its settings. A request whose replacements go round in
circles has no end. -/
def runCommand
    (fileSystem : FileSystem)
    (settings : Settings)
    (json : Bool) : Command → Option Outcome
  | .version => some (versionOutcome json)
  | .resolve request => do
      let (result, _) ← answer fileSystem settings
        (some Resolver.triedLimit) request
      let context := within settings.workingDirectory request.context
      some (resolveOutcome json request.specifier context result)
  | .describe directory =>
      let directory := within settings.workingDirectory directory
      let resolver : Resolver := ⟨fileSystem, settings.resolver⟩
      let (descriptor, _) := resolver.nearestPackage .empty directory
      some (describeOutcome json directory descriptor)

/-- Run the tool with arguments on a host. -/
def run (host : HostTree) (arguments : List String) : Option Outcome :=
  match read arguments with
  | .error .usage => some .misuse
  | .error .version => some (.success [VersionInfo.current.text])
  | .error (.help topic) => some (.success topic.lines)
  | .ok invocation =>
      match Settings.load host.readBytes
        (invocation.cwd.getD host.workingDirectory) with
      | .error error => some (.failure [error.message])
      | .ok settings =>
          runCommand host.toFileSystem
            { settings with
              verbosity := invocation.verbosity
              jsonLogs := invocation.json }
            invocation.json invocation.command

end CommandLine
end CommonJs
