import CommonJs.Path.Basic

/-!
# Normalized paths

Normalization reads the steps of a path from the left and keeps a stack of
those that still count: `..` takes back the name before it, stays at the
root, and is kept where there is nothing to take back. The file system is
not consulted, so links are not followed.
-/

namespace CommonJs
namespace Path

/-- The stack of steps, last step first, after one more step. -/
def advance (stack : List Component) : Component → List Component
  | .root => [.root]
  | .here => stack
  | .name chars => .name chars :: stack
  | .up =>
      match stack with
      | .name _ :: rest => rest
      | .root :: rest => .root :: rest
      | _ => .up :: stack

/-- The steps that are left after all `..` steps have been carried out. -/
def settle (components : List Component) : List Component :=
  (components.foldl advance []).reverse

/-- The plainest path with given steps; no step at all is written `.`. -/
def ofComponents : List Component → Path
  | [] => ⟨['.']⟩
  | .root :: steps => ofSegments (some .root) (steps.map Component.chars)
  | steps => ofSegments none (steps.map Component.chars)

/-- The path with `.` steps dropped and `..` steps carried out. -/
def normalize (path : Path) : Path :=
  ofComponents (settle path.components)

end Path
end CommonJs
