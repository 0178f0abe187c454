/-!
# Specifiers

A specifier asks for a module: by a path, or by the name of a package that
may be followed by a path inside the package.
-/

namespace CommonJs
namespace Specifier

/-- Whether a text starts with a drive letter, a colon and a slash or a
backslash. -/
def hasDrive : List Char → Bool
  | drive :: ':' :: separator :: _ =>
      drive.isAlpha && (separator = '\\' || separator = '/')
  | _ => false

/-- Whether a specifier asks for a path and not for a package. -/
def isPath (specifier : String) : Bool :=
  specifier = "." || specifier = ".." || specifier.startsWith "./" ||
    specifier.startsWith "../" || specifier.startsWith "/" ||
    hasDrive specifier.toList || specifier.startsWith "\\\\"

/-- The text before the first slash and the text after it, if there is one. -/
def splitAtSlash (chars : List Char) : List Char × Option (List Char) :=
  match chars.dropWhile (· ≠ '/') with
  | [] => (chars, none)
  | _ :: rest => (chars.takeWhile (· ≠ '/'), some rest)

/-- The name of the package that a specifier asks for and the path inside it.
A name that starts with `@` has two segments. -/
def split (specifier : String) : String × Option String :=
  let (name, rest) := splitAtSlash specifier.toList
  match name, rest with
  | '@' :: _, some rest =>
      match splitAtSlash rest with
      | (_, none) => (specifier, none)
      | (second, some path) =>
          (String.ofList (name ++ '/' :: second), some (String.ofList path))
  | _, some path => (String.ofList name, some (String.ofList path))
  | _, none => (specifier, none)

end Specifier
end CommonJs
