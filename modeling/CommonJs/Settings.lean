import CommonJs.FileSystem.Host
import CommonJs.Resolver.Config

/-!
# Settings of a run

The settings of resolution come from a file in the working directory, which
may be missing; the others from the command line.
-/

namespace CommonJs

/-- What a run is to know. -/
structure Settings where
  /-- Where relative paths start. -/
  workingDirectory : Path
  /-- Whether messages are written as JSON. -/
  jsonLogs : Bool
  /-- How detailed messages are. -/
  verbosity : Nat
  /-- How requests are resolved. -/
  resolver : ResolverConfig

/-- Why the settings could not be had. -/
inductive SettingsError
  | unreadable (path : Path)
  | malformed (path : Path)
  deriving DecidableEq

namespace SettingsError

/-- The file that is at fault. -/
def path : SettingsError → Path
  | unreadable path => path
  | malformed path => path

/-- What an error says. -/
def message : SettingsError → String
  | unreadable path => "Failed to read config at " ++ path.toString
  | malformed path => "Failed to parse config at " ++ path.toString

end SettingsError

namespace Settings

/-- The name of the file. -/
def fileName : String := "cjsbox.json"

/-- The settings of resolution in a file, the standard ones if there is no
such file. The file is UTF-8 throughout. -/
def readResolver
    (readBytes : Path → Except ReadError (List UInt8))
    (path : Path) : Except SettingsError ResolverConfig :=
  match readBytes path with
  | .error .missing => .ok .standard
  | .error _ => .error (.unreadable path)
  | .ok bytes =>
      match Text.ofUtf8? bytes with
      | none => .error (.unreadable path)
      | some text =>
          match ResolverConfig.ofText? text with
          | none => .error (.malformed path)
          | some config => .ok config

/-- The settings for a working directory. -/
def load
    (readBytes : Path → Except ReadError (List UInt8))
    (workingDirectory : Path) : Except SettingsError Settings :=
  (readResolver readBytes (workingDirectory.child fileName)).map fun resolver =>
    ⟨workingDirectory, false, 0, resolver⟩

/-- The settings as a JSON object. -/
def toJson (settings : Settings) : Json :=
  .object
    [("cwd", .string settings.workingDirectory.toString),
      ("json_logs", .bool settings.jsonLogs),
      ("verbosity", .number (.integer settings.verbosity)),
      ("resolver", settings.resolver.toJson)]

end Settings
end CommonJs
