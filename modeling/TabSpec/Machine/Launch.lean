import TabSpec.Machine.Basic

/-! Starting programs: what is started, and what comes of it. -/
namespace TabSpec

/-- A script that lies in a temporary file while a program runs. -/
structure ScriptFile where
  suffix : String
  content : String
deriving Repr, DecidableEq, Inhabited

/-- Permissions of a temporary file: its owner may read and write it. -/
def ScriptFile.mode : Nat := 0o600

/-- Where a temporary script lies. -/
def ScriptFile.path (machine : Machine) (file : ScriptFile) : String :=
  Path.join machine.temporaryDirectory ("compspec_run_" ++ machine.stamp ++ file.suffix)

structure Launch where
  program : String
  arguments : List String
  directory : String
  /-- Variables on top of those of the process. -/
  bindings : OrderedMap String
  script : Option ScriptFile
deriving Repr, DecidableEq, Inhabited

/-- How a program ended. -/
inductive Ending
  | exited (code : Nat)
  | killed (signal : Nat)
deriving Repr, DecidableEq, Inhabited

def Ending.fault : Ending → ProcessFault
  | .exited code => .exited code
  | .killed signal => .killed signal

/-- What a program leaves behind; its output and errors are octets. -/
structure Outcome where
  ending : Ending
  output : List Char
  errors : List Char
deriving Inhabited

end TabSpec
