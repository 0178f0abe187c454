import CommonJs.Json.Literal

/-!
# Settings of resolution

The settings are read from a JSON object whose members may be left out, or
from an array that holds the first few of them in order. A member that is
given twice or has the wrong type is an error; members of other names are
skipped, whatever they hold.
-/

namespace CommonJs

/-- The extensions to try, the names of directories that hold packages, the
name of manifests, and whether browser fields count. -/
structure ResolverConfig where
  /-- What is appended to a path that is no file, in order. -/
  extensions : List String
  /-- The names of directories that hold packages, in order. -/
  packageRoots : List String
  /-- The name of the files that describe packages. -/
  manifest : String
  /-- Whether the browser fields of manifests count. -/
  browser : Bool
  deriving DecidableEq

namespace ResolverConfig

/-- The settings where nothing else is said. -/
def standard : ResolverConfig where
  extensions := [".js", ".json"]
  packageRoots := ["node_modules"]
  manifest := "package.json"
  browser := true

instance : Inhabited ResolverConfig := ⟨standard⟩

/-- The settings that are given, each one at most once. -/
structure Given where
  /-- The extensions, if given. -/
  extensions : Option (List String)
  /-- The names of directories that hold packages, if given. -/
  packageRoots : Option (List String)
  /-- The name of manifests, if given. -/
  manifest : Option String
  /-- Whether browser fields count, if given. -/
  browser : Option Bool
  deriving DecidableEq

namespace Given

/-- No setting at all. -/
def nothing : Given := ⟨none, none, none, none⟩

/-- The given settings, and the standard ones for the others. -/
def complete (given : Given) : ResolverConfig where
  extensions := given.extensions.getD standard.extensions
  packageRoots := given.packageRoots.getD standard.packageRoots
  manifest := given.manifest.getD standard.manifest
  browser := given.browser.getD standard.browser

end Given

/-- A text is read from a string only. -/
def readText? : Literal → Option String
  | .string units => Literal.textOf? units
  | _ => none

/-- Texts are read from an array of strings. -/
def readTexts? : Literal → Option (List String)
  | .array items => items.mapM readText?
  | _ => none

/-- A flag is read from `true` or `false`. -/
def readBool? : Literal → Option Bool
  | .bool value => some value
  | _ => none

/-- The given settings with one more member. -/
def addMember?
    (given : Given)
    (name : String)
    (value : Literal) : Option Given :=
  match name with
  | "extensions" =>
      if given.extensions.isSome then none
      else (readTexts? value).map fun texts =>
        { given with extensions := some texts }
  | "packageRoots" =>
      if given.packageRoots.isSome then none
      else (readTexts? value).map fun texts =>
        { given with packageRoots := some texts }
  | "manifest" =>
      if given.manifest.isSome then none
      else (readText? value).map fun text =>
        { given with manifest := some text }
  | "browser" =>
      if given.browser.isSome then none
      else (readBool? value).map fun flag => { given with browser := some flag }
  | _ => some given

/-- The settings given by the members of an object. -/
def readMembers? (given : Given) : List (List TextUnit × Literal) → Option Given
  | [] => some given
  | (key, value) :: rest => do
      let name ← Literal.textOf? key
      let given ← addMember? given name value
      readMembers? given rest

/-- The names of the settings in the order in which an array gives them. -/
def names : List String :=
  ["extensions", "packageRoots", "manifest", "browser"]

/-- The settings given by the items of an array. -/
def readItems? (given : Given) : List String → List Literal → Option Given
  | _, [] => some given
  | [], _ :: _ => none
  | name :: names, item :: items => do
      let given ← addMember? given name item
      readItems? given names items

/-- The settings that a JSON text gives. -/
def ofLiteral? : Literal → Option ResolverConfig
  | .object members => (readMembers? .nothing members).map Given.complete
  | .array items => (readItems? .nothing names items).map Given.complete
  | _ => none

/-- The settings that a text gives, if it is JSON. -/
def ofText? (text : String) : Option ResolverConfig :=
  (Literal.ofChars? text.toList).bind ofLiteral?

/-- The members of the object that settings are written as. -/
def members (config : ResolverConfig) : List (String × Json) :=
  [("extensions", .array (config.extensions.map .string)),
    ("packageRoots", .array (config.packageRoots.map .string)),
    ("manifest", .string config.manifest),
    ("browser", .bool config.browser)]

/-- The settings as a JSON object. -/
def toJson (config : ResolverConfig) : Json := .object config.members

end ResolverConfig
end CommonJs
