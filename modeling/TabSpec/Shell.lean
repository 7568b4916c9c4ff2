import TabSpec.Action.Process

/-! Shells: how each of them is told to run a script, and reading candidates from what it prints. -/
namespace TabSpec

inductive Shell
  | bash | cmd | elvish | fish | ion | nu | osh | pwsh | sh | xonsh | zsh
deriving Repr, DecidableEq, Inhabited

namespace Shell

def name : Shell → String
  | .bash => "bash"
  | .cmd => "cmd"
  | .elvish => "elvish"
  | .fish => "fish"
  | .ion => "ion"
  | .nu => "nu"
  | .osh => "osh"
  | .pwsh => "pwsh"
  | .sh => "sh"
  | .xonsh => "xonsh"
  | .zsh => "zsh"

def all : List Shell :=
  [.bash, .cmd, .elvish, .fish, .ion, .nu, .osh, .pwsh, .sh, .xonsh, .zsh]

theorem mem_all (shell : Shell) : shell ∈ all := by cases shell <;> decide

/-- The shell of a script that names none. -/
def default : Shell := .sh

def ofName (name : String) : Except SpecFault Shell :=
  match all.find? (·.name == name) with
  | some shell => .ok shell
  | none => .error (.unknownMacro ("$" ++ name))

/-- Whether the shell also exists on Windows. -/
def onWindows (shell : Shell) : Bool := [cmd, elvish, nu, pwsh, xonsh].contains shell

/-- A program with its arguments, and the script that they refer to. -/
structure Invocation where
  program : String
  arguments : List String
  script : Option ScriptFile
deriving Repr, DecidableEq

/-- How the shell runs a script with arguments. Two shells read it from a file, because they mangle
the arguments behind a script on their command line. -/
def invocation (machine : Machine) (script : String) (arguments : List String) (shell : Shell) :
    Invocation :=
  let ofFile (options : List String) (file : ScriptFile) : Invocation :=
    ⟨shell.name, options ++ [file.path machine] ++ arguments, some file⟩
  match shell with
  | .cmd => ⟨shell.name, ["/c", script] ++ arguments, none⟩
  | .pwsh => ofFile ["-NoProfile", "-File"] ⟨".ps1", script⟩
  | .nu => ofFile [] ⟨".nu", "def --wrapped main [...args] \x7b " ++ script ++ " \x7d\n"⟩
  | _ => ⟨shell.name, ["-c", script, "--"] ++ arguments, none⟩

/-- A line without the carriage returns at its end. -/
def trimReturn (line : List Char) : List Char := (line.reverse.dropWhile (· == '\r')).reverse

/-- Read one candidate from each line that is not empty. -/
def readOutput (shell : Shell) (output : List Char) : Completion :=
  let lines := Text.parts ['\n'] (Text.ofOctets output).toList
  let lines := if shell = .cmd ∨ shell = .pwsh then lines.map trimReturn else lines
  .ofSuggestions ((lines.filter (!·.isEmpty)).map fun line => Suggestion.parse (String.ofList line))

/-- Run a script and offer what it prints. -/
def action (shell : Shell) (script : String) : Action := fun context =>
  let invocation := shell.invocation context.machine script context.args
  Action.execute invocation.program invocation.arguments invocation.script shell.readOutput context

end Shell
end TabSpec
