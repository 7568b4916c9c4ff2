import TabSpec.Action.Basic
import TabSpec.Machine.Run
import TabSpec.Text.Octets
import TabSpec.Text.Blank

/-! Actions that start a program and read candidates from its output. -/
namespace TabSpec

namespace Context

/-- A program started in the context's directory with the context's variables. -/
def launch (context : Context) (program : String) (arguments : List String)
    (script : Option ScriptFile) : Launch :=
  { program, arguments, directory := context.directory, bindings := context.bindings, script }

end Context

namespace Action

/-- The first line of a text that is not blank. -/
def firstLine? (text : String) : Option String :=
  ((Text.lines text).find? (!Text.allBlank ·)).map Text.trim

/-- What the end of a program means: its output is read if it succeeded; otherwise the first line
of its errors, or else the way it ended, becomes a message. -/
def readOutcome (program : String) (read : List Char → Completion) :
    Except OsFault Outcome → Completion
  | .error fault => .ofMessage (SpecFault.process program (.os fault)).message
  | .ok outcome =>
    if outcome.ending = .exited 0 then read outcome.output
    else
      match firstLine? (Text.ofOctets outcome.errors) with
      | some line => .ofMessage line
      | none => .ofMessage (SpecFault.process program outcome.ending.fault).message

/-- Start a program and turn its output into a completion. -/
def execute (program : String) (arguments : List String) (script : Option ScriptFile)
    (read : List Char → Completion) : Action := fun context => do
  Traced.note .debug "ACTION" "exec" [("program", .string program),
    ("args", Json.ofStrings arguments), ("dir", .string context.directory)]
  return readOutcome program read (context.machine.run (context.launch program arguments script))

end Action
end TabSpec
