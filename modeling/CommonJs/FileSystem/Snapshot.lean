import CommonJs.FileSystem.Host
import CommonJs.FileSystem.Tree

/-!
# Snapshots

A snapshot copies everything below a path of a host into a tree in memory.
Links are followed, and what lies behind one is copied under the path of the
link. A link that leads nowhere or back to a directory around it makes the
snapshot fail.
-/

namespace CommonJs
namespace HostTree

/-- The names in the directory at a place, in order. -/
def namesIn (tree : HostTree) (place : Place) : List (List Char) :=
  tree.entries.toList.filterMap fun entry =>
    match entry.1.getLast? with
    | some (.name name) =>
        if (Place.components (name :: place)) = entry.1 then some name else none
    | _ => none

/-- What a path is made into when it is copied. -/
inductive Copied
  | file (path : Path) (text : String)
  | directory (path : Path)

/-- What lies at a path and below it, which leads to a place inside the
directories `around`. A link into one of those is refused. A directory that
is met inside itself is met there through a link that is refused the second
time, so a copy that succeeds has no more levels of directories than there
are entries and the root, and one level of files below them. -/
def copyBelow
    (tree : HostTree) :
    Nat → List Place → Path → Option (List Copied)
  | 0, _, _ => none
  | levels + 1, around, path =>
      match tree.find? path with
      | .error _ => none
      | .ok (_, .file bytes) => some [.file path (Text.ofUtf8Lossy bytes)]
      | .ok (_, .link _) => none
      | .ok (place, .directory) => do
          let below ← (tree.namesIn place).mapM fun name =>
            let inner := path.join ⟨name⟩
            match tree.entry? (name :: place), tree.find? inner with
            | some (.link _), .ok (target, .directory) =>
                if target ∈ place :: around then none
                else copyBelow tree levels (place :: around) inner
            | _, _ => copyBelow tree levels (place :: around) inner
          some (.directory path :: below.flatten)

/-- A copy of everything at a path and below it. -/
def snapshot (tree : HostTree) (root : Path) : Option FileTree :=
  (tree.copyBelow (tree.entries.size + 2) [] root).map fun copied =>
    copied.foldl
      (fun built piece =>
        match piece with
        | .file path text => built.insertFile path text
        | .directory path => built.insertDirectory path)
      FileTree.empty

end HostTree
end CommonJs
