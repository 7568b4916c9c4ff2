import Std.Time
import TabSpec.CommandLine.Serve

/-! The program: it takes a picture of the machine it is started on, serves its arguments there, and
writes what it leaves behind. -/
namespace TabSpec.Main

/-- How deep the picture goes below the current directory. -/
def pictureDepth : Nat := 12

/-- The variables that requests look at. -/
def variableNames : List String :=
  ["HOME", "PATH", "TMPDIR", "XDG_CACHE_HOME", "XDG_CONFIG_HOME", Configuration.logVariable,
    Configuration.logFileVariable, Configuration.logFormatVariable,
    Configuration.posixFlagsVariable]

def environment : IO (OrderedMap String) := do
  let entries ← variableNames.filterMapM fun name => do
    return (← IO.getEnv name).map (name, ·)
  return .ofList entries

def octetsOf (bytes : ByteArray) : List Char := bytes.toList.map fun byte => Char.ofNat byte.toNat

def bytesOf (octets : List Char) : ByteArray := ⟨(octets.map fun octet => octet.toNat.toUInt8).toArray⟩

/-- The parts of an absolute path. -/
def placeOf (path : String) : List String := (Path.components path).filter (· ≠ "")

/-- A file, which is empty where it cannot be read. One that names its interpreter is a program. -/
def fileAt (path : String) : IO FileKind := do
  let bytes ← try IO.FS.readBinFile path catch _ => pure .empty
  let content := Text.ofOctets (octetsOf bytes)
  return .file content (Text.startsWith "#!" content)

/-- Add what lies at an absolute path to the picture, and what lies below it down to some depth. -/
def addPath : (depth : Nat) → FileTree → (path : String) → IO FileTree
  | 0, tree, _ => return tree
  | depth + 1, tree, path => do
    let here := (← IO.currentDir) / path
    match ← here.symlinkMetadata.toBaseIO with
    | .error _ => return tree
    | .ok metadata =>
      match metadata.type with
      | .dir =>
        let mut tree := tree.put (placeOf path) .directory
        for entry in ← (try here.readDir catch _ => pure #[]) do
          tree ← addPath depth tree (Path.join path entry.fileName)
        return tree
      | .symlink =>
        let target ← try IO.FS.realPath here catch _ => pure here
        return tree.put (placeOf path) (.link target.toString)
      | _ => return tree.put (placeOf path) (← fileAt path)

/-- Add the files that arguments name, wherever they lie. -/
def addArguments (tree : FileTree) (argv : List String) : IO FileTree :=
  argv.foldlM (fun tree (argument : String) => do
    match ← (IO.FS.realPath argument).toBaseIO with
    | .ok place => addPath 1 tree place.toString
    | .error _ => return tree) tree

/-- A picture of the machine for these arguments. -/
def picture (directory : String) (argv : List String) : IO Machine := do
  let environment ← environment
  let stamp ← (List.range 6).mapM fun _ => do
    return Char.ofNat ('A'.toNat + (← IO.rand 0 25))
  let machine : Machine := { files := .empty, environment, stamp := String.ofList stamp }
  let places := machine.temporaryDirectory :: machine.home?.toList
  let tree := places.foldl (fun tree path => tree.put (placeOf path) .directory)
    FileTree.empty.withUtilities
  let tree ← addArguments tree argv
  return { machine with files := ← addPath pictureDepth tree directory }

/-- The current time, in the form of records. -/
def timestamp : IO String := do
  let now := Std.Time.DateTime.ofTimestampWithZone (← Std.Time.Timestamp.now) .UTC
  return now.format "uuuu-MM-dd'T'HH:mm:ss.SSSSSSSSS'Z'"

end TabSpec.Main

/-- Serve the arguments and end with the code of the answer. -/
def main (argv : List String) : IO UInt32 := do
  let directory := (← IO.currentDir).toString
  let machine ← TabSpec.Main.picture directory argv
  let served := TabSpec.serveArguments machine directory (← TabSpec.Main.timestamp) argv
  (← IO.getStdout).write (TabSpec.Main.bytesOf served.output)
  (← IO.getStderr).write (TabSpec.Main.bytesOf served.errors)
  match machine.environment.get? TabSpec.Configuration.logFileVariable with
  | some path =>
    unless served.log.isEmpty || path.isEmpty do
      let file ← IO.FS.Handle.mk path .append
      file.write (TabSpec.Main.bytesOf served.log)
  | none => pure ()
  return served.code.toUInt32
