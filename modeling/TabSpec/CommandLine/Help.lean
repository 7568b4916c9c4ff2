import TabSpec.CommandLine.Request

/-! The help texts of the program. -/
namespace TabSpec

private def levelHelp : String :=
  "--log <LOG>  Log level (debug, info, warn); overrides COMPSPEC_LOG\n"

private def options : String :=
  "Options:\n      " ++ levelHelp ++ "  -h, --help       Print help\n"

private def optionsWithJson : String :=
  "Options:\n      --json       Export the result as JSON\n      " ++ levelHelp ++
    "  -h, --help       Print help\n"

/-- The text about the program, or about one of its subcommands. -/
def helpText : Topic → String
  | .program =>
    "Declarative shell completion specs\n\nUsage: compspec [OPTIONS] <COMMAND>\n\nCommands:\n" ++
      "  complete  Complete the last argument against a spec\n" ++
      "  run       Run the command described by a spec\n" ++
      "  macro     List macros, show a signature or invoke one\n" ++
      "  version   Show version information\n" ++
      "  help      Print this message or the help of the given subcommand(s)\n\n" ++ options
  | .subcommand .complete =>
    "Complete the last argument against a spec\n\n" ++
      "Usage: compspec complete [OPTIONS] <SPEC> [ARGS]...\n\nArguments:\n" ++
      "  <SPEC>     Spec file\n" ++
      "  [ARGS]...  Arguments typed so far, the last one being completed\n\n" ++ optionsWithJson
  | .subcommand .run =>
    "Run the command described by a spec\n\n" ++
      "Usage: compspec run [OPTIONS] <SPEC> [ARGS]...\n\nArguments:\n" ++
      "  <SPEC>     Spec file\n  [ARGS]...  \n\n" ++ options
  | .subcommand .callMacro =>
    "List macros, show a signature or invoke one\n\n" ++
      "Usage: compspec macro [OPTIONS] [NAME] [ARGS]...\n\nArguments:\n" ++
      "  [NAME]     Macro call without \x60$\x60, e.g. \x60files([.rs])\x60\n" ++
      "  [ARGS]...  Arguments and the value being completed\n\n" ++ options
  | .subcommand .protocol =>
    "Delegation protocol used by \x60$program.macro\x60 calls\n\n" ++
      "Usage: compspec _carapace [OPTIONS] [ARGS]...\n\nArguments:\n  [ARGS]...  \n\n" ++ options
  | .subcommand .version =>
    "Show version information\n\nUsage: compspec version [OPTIONS]\n\n" ++ options
  | .help =>
    "Print this message or the help of the given subcommand(s)\n\n" ++
      "Usage: compspec help [COMMAND]...\n\nArguments:\n" ++
      "  [COMMAND]...  Print help for the subcommand(s)\n"

end TabSpec
