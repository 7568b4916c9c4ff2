import TabSpec.Machine.Launch
import TabSpec.Script.Interpreter

/-! Running programs on a machine. A machine brings shells and a few utilities along; whatever a
program changes is gone when it has ended, and only its output and its ending are left. -/
namespace TabSpec

namespace Launch

/-- Whether some text of a launch cannot be handed to a program. -/
def hasNul (launch : Launch) : Bool :=
  let texts := launch.program :: launch.directory :: launch.arguments ++
    launch.bindings.entries.flatMap fun (name, value) => [name, value]
  texts.any (·.toList.contains '\x00')

end Launch

/-- Put the programs that a machine brings along where they are looked for. -/
def FileTree.withUtilities (tree : FileTree) : FileTree :=
  Script.Utility.names.foldl (fun tree name =>
    (tree.put ["usr", "bin", name] .utility).put ["bin", name] .utility) tree

namespace Machine

/-- The number of calls that a program may nest. -/
def callDepth : Nat := 100000

/-- The files that a program finds: those of the machine, and the script of its launch. -/
def filesFor (machine : Machine) (launch : Launch) : FileTree :=
  match launch.script with
  | none => machine.files
  | some script =>
    machine.files.put ((Path.components (script.path machine)).filter (· != ""))
      (.file script.content false)

/-- The state in which a program starts. -/
def session (machine : Machine) (launch : Launch) (directory : String) : Script.Session :=
  { dialect := .standard, name := Text.toOctets launch.program, arguments := [], shadowed := [],
    bindings := (machine.environment.union launch.bindings).entries.map fun (name, value) =>
      ⟨Text.toOctets name, Text.toOctets value, true⟩
    functions := [], status := 0, captured := none, process := 4096, directory,
    files := machine.filesFor launch, input := [], sinks := [(1, .stream 1), (2, .stream 2)],
    streams := 3, written := [], exitOnError := false, unsetIsError := false,
    findsPaths := true, onExit := none, inCondition := false, line := 1 }

/-- Start a program and wait for its end. -/
def run (machine : Machine) (launch : Launch) : Except OsFault Outcome := do
  if launch.hasNul then throw .nulCharacter
  let place ← machine.files.locate launch.directory
  if machine.files.kind? place ≠ some .directory then throw .notDirectory
  let directory := "/" ++ String.intercalate "/" place
  let session := machine.session launch directory
  let name := Text.toOctets launch.program
  let path ← session.findProgram name
  let program := Script.Run.runProgram callDepth name path (launch.arguments.map Text.toOctets)
  let (result, final) := program.run.run session
  let outcome (ending : Ending) : Outcome :=
    ⟨ending, Script.collect 1 final.written, Script.collect 2 final.written⟩
  match result with
  | .ok (.ok (.code status)) => return outcome (.exited status)
  | .ok (.ok (.signal number)) => return outcome (.killed number)
  | .ok (.error fault) => throw fault
  | .error (.killed signal) => return outcome (.killed signal)
  | .error _ => return outcome (.exited final.status)

end Machine
end TabSpec
