import CommonJs.Path.Basic

/-!
# Arguments of the command line

Options may stand before and after the name of a command and between its
operands. A value follows its option as the next argument, unless that looks
like an option itself, or after an equals sign. After `--` everything is an
operand. Verbosity and extensions may be given repeatedly, any other option
once on either side of the name of the command; where it is given on both
sides, the side of the command counts.
-/

namespace CommonJs
namespace CommandLine

/-- The commands by name. -/
inductive CommandName
  | version
  | resolve
  | describe
  deriving DecidableEq

/-- What an option means. -/
inductive Flag
  | verbose
  | json
  | cwd
  | context
  | origin
  | extension
  | noBrowser
  | help
  | version
  deriving DecidableEq

/-- What help is asked for: the whole tool, one of its commands, or help
itself. -/
inductive HelpTopic
  | tool
  | command (name : CommandName)
  | help
  deriving DecidableEq

/-- The topic of help that is asked for before a command or after its
name. -/
def HelpTopic.ofCommand : Option CommandName → HelpTopic
  | some name => command name
  | none => tool

/-- Why the arguments ask for no command to be run. -/
inductive Stop
  | help (topic : HelpTopic)
  | version
  | usage
  deriving DecidableEq

namespace CommandName

/-- The command of a name. -/
def ofText? (text : String) : Option CommandName :=
  match text with
  | "version" => some .version
  | "resolve" => some .resolve
  | "describe" => some .describe
  | _ => none

/-- The most operands that a command takes. -/
def operandLimit : CommandName → Nat
  | version => 0
  | resolve => 1
  | describe => 1

end CommandName

namespace Flag

/-- Whether a value belongs to an option. -/
def takesValue : Flag → Bool
  | cwd | context | origin | extension => true
  | _ => false

/-- Whether the value of an option is a path; no path is empty. -/
def takesPath : Flag → Bool
  | cwd | context | origin => true
  | _ => false

/-- Whether an option may be given more than once. -/
def isRepeatable : Flag → Bool
  | verbose | extension => true
  | _ => false

/-- The option of a name after two hyphens, before a command or after the
name of one. -/
def ofLong? (command : Option CommandName) (name : String) : Option Flag :=
  match name, command with
  | "verbose", _ => some verbose
  | "json", _ => some json
  | "cwd", _ => some cwd
  | "help", _ => some help
  | "version", none => some version
  | "from", some .resolve => some context
  | "origin", some .resolve => some origin
  | "ext", some .resolve => some extension
  | "no-browser", some .resolve => some noBrowser
  | _, _ => none

/-- The option of a letter after one hyphen. -/
def ofShort? (command : Option CommandName) (letter : Char) : Option Flag :=
  match letter, command with
  | 'v', _ => some verbose
  | 'h', _ => some help
  | 'V', none => some version
  | _, _ => none

end Flag

/-- The options with their values and the operands found so far. -/
structure Gathered where
  /-- The options with their values, in the order given. -/
  flags : List (Flag × String)
  /-- The arguments that belong to no option. -/
  operands : List String

namespace Gathered

def empty : Gathered := ⟨[], []⟩

/-- One more option. -/
def addFlag
    (command : Option CommandName)
    (gathered : Gathered)
    (flag : Flag)
    (value : String) : Except Stop Gathered :=
  if flag = .help then .error (.help (.ofCommand command))
  else if flag = .version then .error .version
  else if !flag.isRepeatable && gathered.flags.any (·.1 = flag) then
    .error .usage
  else if flag.takesPath && value = "" then .error .usage
  else .ok { gathered with flags := gathered.flags ++ [(flag, value)] }

/-- One more operand. The operand of `describe` is a path. -/
def addOperand
    (command : CommandName)
    (gathered : Gathered)
    (operand : String) : Except Stop Gathered :=
  if command.operandLimit ≤ gathered.operands.length then .error .usage
  else if command = .describe ∧ operand = "" then .error .usage
  else .ok { gathered with operands := gathered.operands ++ [operand] }

/-- The options of the letters after one hyphen; none of them has a value. -/
def addLetters
    (command : Option CommandName)
    (gathered : Gathered)
    (letters : List Char) : Except Stop Gathered :=
  letters.foldlM
    (fun gathered letter =>
      match Flag.ofShort? command letter with
      | some flag => addFlag command gathered flag ""
      | none => .error .usage)
    gathered

/-- The value of the last option of a kind. -/
def value? (gathered : Gathered) (flag : Flag) : Option String :=
  (gathered.flags.reverse.find? (·.1 = flag)).map (·.2)

/-- Whether an option is given. -/
def has (gathered : Gathered) (flag : Flag) : Bool :=
  gathered.flags.any (·.1 = flag)

/-- The values of all options of a kind. -/
def values (gathered : Gathered) (flag : Flag) : List String :=
  (gathered.flags.filter (·.1 = flag)).map (·.2)

end Gathered

/-- Whether an argument cannot be a value: it has a hyphen and more. -/
def looksLikeOption (argument : String) : Bool :=
  argument.startsWith "-" && argument ≠ "-"

/-- The name after two hyphens and the value after an equals sign. -/
def splitLong (text : List Char) : String × Option String :=
  match text.dropWhile (· ≠ '=') with
  | [] => (String.ofList text, none)
  | _ :: value =>
      (String.ofList (text.takeWhile (· ≠ '=')), some (String.ofList value))

/-- The options and operands of a command. Before the name of a command the
first operand ends the options; it is left over with what follows. -/
def gather
    (command : Option CommandName)
    (gathered : Gathered) :
    List String → Except Stop (Gathered × List String)
  | [] => .ok (gathered, [])
  | argument :: rest =>
      match argument.toList with
      | ['-', '-'] =>
          match command with
          | none => .error .usage
          | some name =>
              (rest.foldlM (Gathered.addOperand name) gathered).map
                fun gathered => (gathered, [])
      | '-' :: '-' :: text =>
          match splitLong text with
          | (name, attached) =>
              match Flag.ofLong? command name, attached, rest with
              | none, _, _ => .error .usage
              | some flag, some value, rest =>
                  if flag.takesValue then
                    match gathered.addFlag command flag value with
                    | .ok gathered => gather command gathered rest
                    | .error stop => .error stop
                  else .error .usage
              | some flag, none, value :: others =>
                  if flag.takesValue then
                    if looksLikeOption value then .error .usage
                    else
                      match gathered.addFlag command flag value with
                      | .ok gathered => gather command gathered others
                      | .error stop => .error stop
                  else
                    match gathered.addFlag command flag "" with
                    | .ok gathered => gather command gathered (value :: others)
                    | .error stop => .error stop
              | some flag, none, [] =>
                  if flag.takesValue then .error .usage
                  else (gathered.addFlag command flag "").map fun gathered =>
                    (gathered, [])
      | '-' :: letter :: letters =>
          match gathered.addLetters command (letter :: letters) with
          | .ok gathered => gather command gathered rest
          | .error stop => .error stop
      | _ =>
          match command with
          | none => .ok (gathered, argument :: rest)
          | some name =>
              match gathered.addOperand name argument with
              | .ok gathered => gather command gathered rest
              | .error stop => .error stop
  termination_by arguments => arguments.length

/-- What the command `resolve` is to do. -/
structure ResolveRequest where
  /-- What is to be found. -/
  specifier : String
  /-- The directory from which it is asked for, if one is named. -/
  context : Option Path
  /-- The file that asks for it, if one is named. -/
  origin : Option Path
  /-- The extensions that take the place of those configured. -/
  extensions : List String
  /-- Whether browser fields are left out of account. -/
  noBrowser : Bool

/-- A command with what it needs. -/
inductive Command
  | version
  | resolve (request : ResolveRequest)
  | describe (directory : Option Path)

/-- A command with the options that hold for all commands. -/
structure Invocation where
  /-- How often more detail was asked for. -/
  verbosity : Nat
  /-- Whether messages are to be written as JSON. -/
  json : Bool
  /-- The directory to work in, if one is named. -/
  cwd : Option Path
  /-- What is to be done. -/
  command : Command

/-- The command of a name with its options and operands. -/
def commandOf? (name : CommandName) (gathered : Gathered) : Option Command :=
  match name, gathered.operands with
  | .version, _ => some .version
  | .describe, operands => some (.describe (operands.head?.map Path.ofString))
  | .resolve, specifier :: _ =>
      some <| .resolve
        { specifier
          context := (gathered.value? .context).map Path.ofString
          origin := (gathered.value? .origin).map Path.ofString
          extensions := gathered.values .extension
          noBrowser := gathered.has .noBrowser }
  | .resolve, [] => none

/-- The request for help with the words that follow `help`. -/
def helpFor : List String → Stop
  | [] => .help .tool
  | ["help"] => .help .help
  | [name] =>
      match CommandName.ofText? name with
      | some command => .help (.command command)
      | none => .usage
  | _ => .usage

/-- The invocation that the arguments spell. -/
def read (arguments : List String) : Except Stop Invocation := do
  let (outer, rest) ← gather none .empty arguments
  match rest with
  | [] => .error .usage
  | name :: rest =>
      if name = "help" then .error (helpFor rest)
      else
        match CommandName.ofText? name with
        | none => .error .usage
        | some name => do
            let (inner, _) ← gather (some name) .empty rest
            match commandOf? name inner with
            | none => .error .usage
            | some command =>
                let count :=
                  if inner.has .verbose then (inner.values .verbose).length
                  else (outer.values .verbose).length
                .ok
                  { verbosity := count
                    json := inner.has .json || outer.has .json
                    cwd := ((inner.value? .cwd).or (outer.value? .cwd)).map
                      Path.ofString
                    command }

end CommandLine
end CommonJs
