import TabSpec.Machine.Files
import TabSpec.OrderedMap

/-! The machine on which a request is served: its files and the environment of the process. -/
namespace TabSpec

structure Machine where
  files : FileTree
  /-- The variables of the process. -/
  environment : OrderedMap String
  /-- Tells temporary files apart. -/
  stamp : String
deriving Inhabited

namespace Machine

/-- The home directory of the user. -/
def home? (machine : Machine) : Option String := (machine.environment.get? "HOME").filter (· != "")

def temporaryDirectory (machine : Machine) : String :=
  (machine.environment.get? "TMPDIR").getD "/tmp"

/-- A path with a leading tilde replaced by the home directory. -/
def expandTilde (machine : Machine) (path : String) : String :=
  match Text.stripFront? "~" path, machine.home? with
  | some rest, some home => if rest = "" || Text.startsWith "/" rest then home ++ rest else path
  | _, _ => path

/-- A directory of the user: what an absolute variable says, or else a place below home. -/
def userDirectory? (machine : Machine) (variableName place : String) : Option String :=
  match (machine.environment.get? variableName).filter Path.isAbsolute with
  | some directory => some directory
  | none => machine.home?.map (Path.join · place)

end Machine
end TabSpec
