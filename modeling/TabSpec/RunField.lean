import TabSpec.Call
import TabSpec.Expression
import TabSpec.Shebang
import TabSpec.Shell

/-! The run field of a command: a program with arguments, a script for a shell, or a script that
names its interpreter. -/
namespace TabSpec

/-- A script for a shell, with the directories to change to before it runs. -/
structure ShellScript where
  /-- The shell, unless it is the default one. -/
  shell : Option Shell
  body : String
  chdir : List String
deriving Repr, DecidableEq, Inhabited

inductive RunField
  | alias (argv : List String)
  | script (shellScript : ShellScript)
  | shebang (interpreted : Shebang)
deriving Repr, DecidableEq, Inhabited

/-- A run field as it is written. -/
inductive RunSource
  | list (argv : List String)
  | text (text : String)
deriving Repr, DecidableEq

namespace ShellScript

/-- The directory of a modifier that changes it. -/
def directoryOf (call : String) : Except SpecFault String :=
  if Text.startsWith "$chdir(" call then return (← Call.parse call).2
  else throw (.run (.invalidModifier call))

def parse (text : String) : Except SpecFault ShellScript := do
  let (head, modifiers) := Expression.headAndModifiers text
  let (name, body) ← Call.parse head
  let shell ← if name = "" then pure none else some <$> Shell.ofName name
  return ⟨shell, body, ← modifiers.mapM directoryOf⟩

def runsIn (script : ShellScript) : Shell := script.shell.getD .default

def source (script : ShellScript) : String :=
  let name := (script.shell.map Shell.name).getD ""
  "$" ++ name ++ "(" ++ script.body ++ ")" ++
    String.join (script.chdir.map fun directory =>
      Expression.separator ++ "$chdir(" ++ directory ++ ")")

end ShellScript

namespace RunField

def ofList (argv : List String) : Except SpecFault RunField :=
  if argv.isEmpty then .error (.run .emptyAlias) else .ok (.alias argv)

/-- Read the text of a run field. -/
def parse (text : String) : Except SpecFault RunField :=
  match text.toList with
  | '[' :: _ =>
    match (Yaml.document? text).bind Yaml.Node.texts? with
    | some argv => ofList argv
    | none => .error (.run .malformedAlias)
  | '$' :: _ => (ShellScript.parse text).map .script
  | '#' :: '!' :: _ => (Shebang.parse text).map .shebang
  | _ => .error (.run (.unknownForm text))

def ofSource : RunSource → Except SpecFault RunField
  | .list argv => ofList argv
  | .text text => parse text

def source : RunField → RunSource
  | .alias argv => .list argv
  | .script shellScript => .text shellScript.source
  | .shebang interpreted => .text interpreted.source

end RunField

/-- A program ready to start. -/
structure PreparedRun where
  launch : Launch
  /-- The program's name in messages. -/
  program : String
deriving Repr, DecidableEq, Inhabited

namespace RunField

private def prepared (context : Context) (program : String) (arguments : List String)
    (script : Option ScriptFile) : PreparedRun :=
  ⟨context.launch program arguments script, program⟩

/-- Change to directories one after the other. -/
def changeTo (context : Context) : List String → Except SpecFault Context
  | [] => .ok context
  | argument :: rest => do
    let directory ← Traversal.directoryOf context argument
    changeTo { context with directory } rest

/-- Prepare the program with arguments behind its own. The placeholders of an alias are filled,
except in the program's name. -/
def prepare (context : Context) (args : List String) : RunField → Except SpecFault PreparedRun
  | .alias argv => do
    let filled ← (argv.drop 1).mapM context.substitute
    return prepared context (argv.head?.getD "") (filled ++ args) none
  | .script shellScript => do
    let context ← changeTo { context with args } shellScript.chdir
    let invocation := shellScript.runsIn.invocation context.machine shellScript.body args
    return prepared context invocation.program invocation.arguments invocation.script
  | .shebang interpreted =>
    let (suffix, option) := interpreted.fileConvention
    let file : ScriptFile := ⟨suffix, interpreted.script⟩
    .ok (prepared context interpreted.command
      (interpreted.args ++ option.toList ++ [file.path context.machine] ++ args) (some file))

end RunField

namespace PreparedRun

/-- Start the program and wait for its end. -/
def execute (machine : Machine) (run : PreparedRun) : Traced (Except SpecFault Outcome) := do
  Traced.note .info "RUN" "spawn" [("program", .string run.program)]
  return (machine.run run.launch).mapError fun fault => .process run.program (.os fault)

end PreparedRun
end TabSpec
