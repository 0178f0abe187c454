import CommonJs.Json.Literal
import CommonJs.Package.Browser

/-!
# Package descriptors

What resolution wants to know of a package: the directory of its manifest,
its name, its main file and its browser field.
-/

namespace CommonJs

/-- The part of a manifest that resolution looks at. -/
structure PackageDescriptor where
  /-- Where the manifest lies. -/
  directory : Path
  /-- The name of the package. -/
  name : Option String
  /-- The file or directory that stands for the package. -/
  main : Option String
  /-- The entries of the browser field. -/
  browser : BrowserMap

namespace PackageDescriptor

/-- A member that is a text, the empty text apart. -/
def textMember?
    (members : List (String × Json))
    (key : String) : Option String :=
  match Json.member? members key with
  | some (.string text) => if text = "" then none else some text
  | _ => none

/-- The descriptor of a manifest in a directory. A manifest is an object. -/
def ofJson?
    (fileSystem : FileSystem)
    (directory : Path) :
    Json → Option PackageDescriptor
  | .object members =>
      some
        { directory
          name := textMember? members "name"
          main := textMember? members "main"
          browser :=
            BrowserMap.ofJson fileSystem directory
              (Json.member? members "browser") }
  | _ => none

/-- The descriptor of the manifest right inside a directory. A manifest that
is missing, unreadable or no JSON object counts as none. -/
def read?
    (fileSystem : FileSystem)
    (manifest : String)
    (directory : Path) : Option PackageDescriptor :=
  let path := directory.child manifest
  if fileSystem.isFile path then
    match fileSystem.read path with
    | .ok text => (Json.ofText? text).bind (ofJson? fileSystem directory)
    | .error _ => none
  else none

end PackageDescriptor
end CommonJs
