import CommonJs.CommandLine.Report

/-!
# Consulted paths

Which paths of a host a run of the tool looks at. Against a host of which
only a part is recorded, these are the paths that the run asks for as far as
the record shows; where all of them are recorded, the run ends as it does on
the whole host.
-/

namespace CommonJs
namespace CommandLine

/-- The manifest right inside a directory, and the files that its browser
field has entries for. -/
def manifestPaths
    (host : HostTree)
    (manifest : String)
    (directory : Path) : List Path :=
  let path := directory.child manifest
  match host.read path with
  | .error _ => [path]
  | .ok text =>
      match Json.ofText? text with
      | some (.object members) =>
          path :: (BrowserMap.fileKeys (Json.member? members "browser")).map
            directory.child
      | _ => [path]

/-- The paths that a command looks at. -/
def commandPaths (host : HostTree) (settings : Settings) : Command → List Path
  | .version => []
  | .resolve request =>
      let context := within settings.workingDirectory request.context
      let origin := request.origin.map settings.workingDirectory.join
      match answer host.toFileSystem settings none request with
      | none => []
      | some (result, memo) =>
          context :: origin.toList ++ result.tried ++
            memo.directories.flatMap
              (manifestPaths host settings.resolver.manifest)
  | .describe directory =>
      let directory := within settings.workingDirectory directory
      let resolver : Resolver := ⟨host.toFileSystem, settings.resolver⟩
      let (_, memo) := resolver.nearestPackage .empty directory
      directory ::
        memo.directories.flatMap (manifestPaths host settings.resolver.manifest)

/-- The paths that a run with these arguments looks at. -/
def consulted (host : HostTree) (arguments : List String) : List Path :=
  match read arguments with
  | .error _ => []
  | .ok invocation =>
      let workingDirectory := invocation.cwd.getD host.workingDirectory
      workingDirectory.child Settings.fileName ::
        match Settings.load host.readBytes workingDirectory with
        | .error _ => []
        | .ok settings => commandPaths host settings invocation.command

end CommandLine
end CommonJs
