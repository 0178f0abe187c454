import CommonJs.FileSystem.Basic

/-!
# Failures of loading

Loading fails because a specifier leads nowhere, because a file cannot be
read, because data is malformed, or because a body stops. Each message names
the module that failed itself.
-/

namespace CommonJs

/-- Why a body stopped before its end: its text is no body, or it threw. -/
inductive Failure
  | malformed (message : String)
  | thrown (text : String)
  deriving DecidableEq

/-- What a failure says. -/
def Failure.message : Failure → String
  | malformed message => "SyntaxError: " ++ message
  | thrown text => text

/-- Why a module could not be loaded. -/
inductive LoadError
  | notFound (specifier : String) (context : Path) (tried : List Path)
  | unreadable (path : Path) (failure : ReadFailure)
  | malformedJson (path : Path)
  | evaluation (path : Path) (failure : Failure)
  deriving DecidableEq

namespace LoadError

/-- What an error says. -/
def message : LoadError → String
  | notFound specifier context _ =>
      "Cannot find module '" ++ specifier ++ "' from '" ++
        context.toString ++ "'"
  | unreadable path failure =>
      let headline := "Failed to read module " ++ path.toString
      match failure.detail with
      | some detail => headline ++ ": " ++ detail
      | none => headline
  | malformedJson path => "Failed to parse JSON module " ++ path.toString
  | evaluation path failure =>
      "Error evaluating " ++ path.toString ++ ": " ++ failure.message

/-- Whether there is no such module, in contrast to one that fails. -/
def isNotFound : LoadError → Bool
  | notFound .. => true
  | _ => false

end LoadError
end CommonJs
