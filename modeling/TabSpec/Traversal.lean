import TabSpec.Argument
import TabSpec.Call
import TabSpec.Context

/-! Directories that are looked up rather than named. -/
namespace TabSpec

inductive Traversal
  | gitDir
  | gitWorkTree
  /-- A number of levels up, or the closest directory that holds one of the names. -/
  | parent (names : List String)
  | tempDir
  | userCacheDir
  | userConfigDir
  | userHomeDir
  | xdgCacheHome
  | xdgConfigHome
deriving Repr, DecidableEq

namespace Traversal

/-- Read a call that names a directory. -/
def parse (call : String) : Except SpecFault Traversal := do
  let (name, argument) ← Call.parse call
  match name with
  | "gitdir" => return .gitDir
  | "gitworktree" => return .gitWorkTree
  | "parent" => return .parent (← MacroArgument.decodeList argument)
  | "tempdir" => return .tempDir
  | "usercachedir" => return .userCacheDir
  | "userconfigdir" => return .userConfigDir
  | "userhomedir" => return .userHomeDir
  | "xdgcachehome" => return .xdgCacheHome
  | "xdgconfighome" => return .xdgConfigHome
  | _ => throw (.unknownMacro call)

/-- The closest directory from the context's directory upwards that holds one of the names. -/
def holding (context : Context) (names : List String) : Except UsageFault String :=
  let holds (directory : String) : Bool :=
    names.any fun name => context.machine.files.exists? (Path.join directory name)
  match (Path.ancestors context.directory).find? holds with
  | some directory => .ok directory
  | none => .error (.noParentContaining names)

private def valueOf? (context : Context) (name : String) : Option String :=
  (context.get? name).filter (· != "")

theorem get?_of_valueOf? {context : Context} {name value : String}
    (found : valueOf? context name = some value) : context.get? name = some value :=
  (Option.filter_eq_some_iff.mp found).1

/-- What a variable says, or else a place below the home directory. -/
def ofVariable (context : Context) (name place : String) : Except UsageFault String :=
  match valueOf? context name, context.machine.home? with
  | some directory, _ => .ok directory
  | none, some home => .ok (Path.join home place)
  | none, none => .error .unknownHome

/-- How many levels up the names ask for, if they do not name files. -/
def levels? : List String → Option Nat
  | [] => some 1
  | [name] => (Text.readDecimal? (.unsigned 64) name).map Int.toNat
  | _ => none

private def known (fault : UsageFault) (directory : Option String) : Except UsageFault String :=
  match directory with
  | some directory => .ok directory
  | none => .error fault

theorem known_eq_ok_iff {fault : UsageFault} {directory : Option String} {path : String} :
    known fault directory = .ok path ↔ directory = some path := by
  cases directory <;> simp [known]

/-- The path above a path, if it has so many levels. -/
def above? (path : String) (levels : Nat) : Option String :=
  if path.length < levels then none else Path.ancestor? path levels

/-- Look the directory up. -/
def resolve (context : Context) : Traversal → Except UsageFault String
  | .gitWorkTree => holding context [".git"]
  | .gitDir =>
    match valueOf? context "GIT_DIR" with
    | some directory => .ok (context.resolve directory)
    | none => (holding context [".git"]).map (Path.join · ".git")
  | .parent names =>
    match levels? names with
    | some levels =>
      known (.noParent levels context.directory) (above? context.directory levels)
    | none => holding context names
  | .tempDir => .ok context.machine.temporaryDirectory
  | .userCacheDir =>
    known .unknownCache (context.machine.userDirectory? "XDG_CACHE_HOME" ".cache")
  | .userConfigDir =>
    known .unknownConfiguration (context.machine.userDirectory? "XDG_CONFIG_HOME" ".config")
  | .userHomeDir => known .unknownHome context.machine.home?
  | .xdgCacheHome => ofVariable context "XDG_CACHE_HOME" ".cache"
  | .xdgConfigHome => ofVariable context "XDG_CONFIG_HOME" ".config"

/-- The directory that an argument names: a path, or a call that looks one up. -/
def directoryOf (context : Context) (argument : String) : Except SpecFault String :=
  if Text.startsWith "$" argument then do
    let traversal ← parse argument
    (traversal.resolve context).mapError .usage
  else .ok (context.resolve argument)

end Traversal
end TabSpec
