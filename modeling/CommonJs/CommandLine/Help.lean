import CommonJs.CommandLine.Arguments

/-!
# Help texts

What the tool says about itself and about each of its commands.
-/

namespace CommonJs
namespace CommandLine

/-- What each command is for, in the order in which help lists them. -/
def CommandName.summary : CommandName → String
  | version => "Print version information"
  | resolve => "Resolve a specifier the way `require` would"
  | describe => "Show the package descriptor governing a directory"

/-- The lines on the options of the whole tool. -/
def generalHelp : List String :=
  ["Inspect CommonJS module resolution",
    "",
    "Usage: cjsbox [OPTIONS] <COMMAND>",
    "",
    "Commands:",
    "  version   " ++ CommandName.version.summary,
    "  resolve   " ++ CommandName.resolve.summary,
    "  describe  " ++ CommandName.describe.summary,
    "  help      Print this message or the help of the given subcommand(s)",
    "",
    "Options:",
    "  -v, --verbose...  Increase logging verbosity (-v for DEBUG, -vv for TRACE)",
    "      --json        Emit JSON formatted output (stable, machine-readable)",
    "      --cwd <PATH>  Override the working directory",
    "  -h, --help        Print help",
    "  -V, --version     Print version"]

/-- The lines on a command. -/
def CommandName.help : CommandName → List String
  | version =>
      [version.summary,
        "",
        "Usage: cjsbox version [OPTIONS]",
        "",
        "Options:",
        "  -v, --verbose...  Increase logging verbosity (-v for DEBUG, -vv for TRACE)",
        "      --json        Emit JSON formatted output (stable, machine-readable)",
        "      --cwd <PATH>  Override the working directory",
        "  -h, --help        Print help"]
  | resolve =>
      [resolve.summary,
        "",
        "Usage: cjsbox resolve [OPTIONS] <SPECIFIER>",
        "",
        "Arguments:",
        "  <SPECIFIER>  The specifier (e.g., \"./utils\", \"lodash/fp\", \"@scope/pkg\")",
        "",
        "Options:",
        "      --from <DIR>    Directory to resolve from (defaults to cwd)",
        "  -v, --verbose...    Increase logging verbosity (-v for DEBUG, -vv for TRACE)",
        "      --json          Emit JSON formatted output (stable, machine-readable)",
        "      --origin <DIR>  Requesting directory for browser-field lookup (defaults to --from)",
        "      --cwd <PATH>    Override the working directory",
        "      --ext <EXT>     Extension to probe, in order; repeatable " ++
          "(replaces the configured list)",
        "      --no-browser    Ignore `browser` fields",
        "  -h, --help          Print help"]
  | describe =>
      [describe.summary,
        "",
        "Usage: cjsbox describe [OPTIONS] [DIR]",
        "",
        "Arguments:",
        "  [DIR]  Directory to inspect (defaults to cwd)",
        "",
        "Options:",
        "  -v, --verbose...  Increase logging verbosity (-v for DEBUG, -vv for TRACE)",
        "      --json        Emit JSON formatted output (stable, machine-readable)",
        "      --cwd <PATH>  Override the working directory",
        "  -h, --help        Print help"]

/-- The lines on a topic. -/
def HelpTopic.lines : HelpTopic → List String
  | tool => generalHelp
  | command name => name.help
  | help =>
      ["Print this message or the help of the given subcommand(s)",
        "",
        "Usage: cjsbox help [COMMAND]...",
        "",
        "Arguments:",
        "  [COMMAND]...  Print help for the subcommand(s)"]

end CommandLine
end CommonJs
