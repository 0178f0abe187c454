import CommonJs.CommandLine.Consulted

/-!
# The command-line tool

The tool records the part of the host that its run looks at, path by path
until the run asks for nothing new, and then runs on the record.
-/

namespace CommonJs
namespace HostTree

/-- Record what a host has along some segments from a place. A place whose
real path is another one is a link to there; a place that has no real path
leads nowhere, or round in circles. A file that cannot be read counts as
empty. -/
partial def observe
    (tree : HostTree)
    (place : Place) :
    List (List Char) → IO HostTree
  | [] => return tree
  | segment :: rest =>
      match Path.stepOf segment with
      | some (.name name) => do
          let next : Place := name :: place
          match ← (IO.FS.realPath next.toPath.toString).toBaseIO with
          | .error _ =>
              match ← (IO.FS.readBinFile next.toPath.toString).toBaseIO with
              | .error (.noFileOrDirectory ..) | .error (.noSuchThing ..) =>
                  return tree
              | _ => return tree.put next (.link next.toPath)
          | .ok real =>
              let realPath := Path.ofString real.toString
              if realPath = next.toPath then
                match (← real.metadata).type with
                | .dir => (tree.put next .directory).observe next rest
                | .file =>
                    match ← (IO.FS.readBinFile real).toBaseIO with
                    | .ok bytes => return tree.put next (.file bytes.toList)
                    | .error _ => return tree.put next (.file [])
                | _ => return tree
              else
                (tree.put next (.link realPath)).observe []
                  (Path.segments realPath.chars ++ rest)
      | some .up => tree.observe place.tail rest
      | _ => tree.observe place rest

/-- Record what a host has along a path. -/
def observePath (tree : HostTree) (path : Path) : IO HostTree :=
  tree.observe [] (Path.segments (tree.workingDirectory.join path).chars)

/-- Record what a host has along all the paths that a run looks at. -/
partial def observeRun (tree : HostTree) (arguments : List String) :
    IO HostTree := do
  let wider ← (CommandLine.consulted tree arguments).foldlM observePath tree
  if wider.entries.size = tree.entries.size then return tree
  else wider.observeRun arguments

end HostTree
end CommonJs

open CommonJs

/-- The tool: it prints what a run comes to and ends with its exit code. -/
def main (arguments : List String) : IO UInt32 := do
  let workingDirectory := Path.ofString (← IO.currentDir).toString
  let host ← (HostTree.empty workingDirectory).observeRun arguments
  match CommandLine.run host arguments with
  | some outcome =>
      IO.print outcome.output
      IO.eprint outcome.complaint
      return outcome.code.toUInt32
  | none =>
      IO.eprintln "The replacements of these packages go round in circles."
      return 1
