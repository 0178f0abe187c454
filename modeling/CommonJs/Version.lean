import CommonJs.Json.Basic

/-!
# Version of the tool
-/

namespace CommonJs

/-- The name and version of a tool, and the state of its source if known. -/
structure VersionInfo where
  /-- The name of the tool. -/
  name : String
  /-- The version of the tool. -/
  version : String
  /-- The commit that it was built from, if known. -/
  gitHash : Option String

namespace VersionInfo

/-- The version of this tool. -/
def current : VersionInfo := ⟨"cjsbox", "0.1.0", none⟩

/-- The version on one line. -/
def text (info : VersionInfo) : String :=
  let base := info.name ++ " " ++ info.version
  match info.gitHash with
  | some hash => base ++ " (" ++ hash ++ ")"
  | none => base

/-- The version as a JSON object. -/
def toJson (info : VersionInfo) : Json :=
  .object
    [("name", .string info.name),
      ("version", .string info.version),
      ("git_hash",
        match info.gitHash with
        | some hash => .string hash
        | none => .null)]

end VersionInfo
end CommonJs
