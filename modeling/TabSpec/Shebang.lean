import TabSpec.Fault
import TabSpec.Text.Blank
import TabSpec.Text.Cut
import TabSpec.Text.ShellWords

/-! Scripts that name their interpreter in their first line. -/
namespace TabSpec

structure Shebang where
  command : String
  /-- Arguments of the interpreter before the script. -/
  args : List String
  /-- The script without its first line. -/
  script : String
deriving Repr, DecidableEq, Inhabited

namespace Shebang

/-- The interpreter and the text of its arguments in a first line. -/
def header? (line : List Char) : Option (List Char × List Char) := do
  let body ← Text.after? ['#', '!'] line
  let command := body.takeWhile (· != ' ')
  guard (!command.isEmpty && !body.contains '\n')
  return (command, body.drop (command.length + 1))

/-- Read a script with its first line. -/
def read (text : String) : Except ShebangFault Shebang :=
  match Text.firstCut? ['\n'] text.toList with
  | none => .error .missingHeader
  | some (line, script) =>
    match header? (Text.trimBack (Text.trimFront line)) with
    | none => .error .invalidHeader
    | some (command, arguments) =>
      if arguments.isEmpty then .ok ⟨String.ofList command, [], String.ofList script⟩
      else
        match Text.ShellWords.split? (String.ofList arguments) with
        | some args => .ok ⟨String.ofList command, args, String.ofList script⟩
        | none => .error (.invalidArguments (String.ofList arguments))

def parse (text : String) : Except SpecFault Shebang := (read text).mapError .shebang

private def isSlash (c : Char) : Bool := c == '/' || c == '\\'

/-- The interpreter's name without its directory and its ending. -/
def interpreter (shebang : Shebang) : String :=
  let base := String.ofList ((shebang.command.toList.reverse.takeWhile (!isSlash ·)).reverse)
  (Text.stripBack? ".exe" base).getD base

/-- What the interpreter wants its script's file name to end in, and an option before the file. -/
def fileConvention (shebang : Shebang) : String × Option String :=
  match shebang.interpreter with
  | "cmd" => (".cmd", some "/c")
  | "pwsh" => (".ps1", some "-f")
  | _ => ("", none)

/-- The script with its first line. -/
def source (shebang : Shebang) : String :=
  let arguments :=
    if shebang.args.isEmpty then ""
    else " " ++ (Text.ShellWords.join? shebang.args).getD (String.intercalate " " shebang.args)
  "#!" ++ shebang.command ++ arguments ++ "\n" ++ shebang.script

end Shebang
end TabSpec
