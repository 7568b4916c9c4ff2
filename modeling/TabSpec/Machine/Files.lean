import TabSpec.Fault
import TabSpec.Machine.Path

/-! The files of a machine: a tree of directories, files and symbolic links. -/
namespace TabSpec

inductive FileKind
  | directory
  | file (content : String) (executable : Bool)
  | link (target : String)
  /-- A program that belongs to the machine. -/
  | utility
deriving Repr, DecidableEq, Inhabited

/-- Files by the parts of their absolute path. -/
structure FileTree where
  entries : List (List String × FileKind)
deriving Repr, DecidableEq, Inhabited

namespace FileTree

def empty : FileTree := ⟨[]⟩

/-- The kind of the file at exactly these parts. -/
def kind? (tree : FileTree) (place : List String) : Option FileKind :=
  if place = [] then some .directory
  else (tree.entries.find? (·.1 == place)).map (·.2)

/-- The directories above a place. -/
private def above (place : List String) : List (List String) :=
  (List.range place.length).map place.take

/-- Put a file at a place, with the directories above it. -/
def put (tree : FileTree) (place : List String) (kind : FileKind) : FileTree :=
  let missing := (above place).filter fun outer => (tree.kind? outer).isNone
  let kept := tree.entries.filter (·.1 != place)
  ⟨kept ++ missing.map (·, .directory) ++ [(place, kind)]⟩

def remove (tree : FileTree) (place : List String) : FileTree :=
  ⟨tree.entries.filter fun entry => !place.isPrefixOf entry.1⟩

/-- Follow the parts of a path from a directory on; `links` bounds the symbolic links that may be
passed, and `fuel` the steps. -/
def follow (tree : FileTree) : (fuel links : Nat) → (place parts : List String) →
    Except OsFault (List String)
  | 0, _, _, _ => .error .tooManyLinks
  | _ + 1, _, place, [] => .ok place
  | fuel + 1, links, place, part :: parts =>
    if tree.kind? place ≠ some .directory then .error .notDirectory
    else if part = "" ∨ part = "." then follow tree fuel links place parts
    else if part = ".." then follow tree fuel links place.dropLast parts
    else
      match tree.kind? (place ++ [part]) with
      | none => .error .noEntry
      | some (.link target) =>
        match links with
        | 0 => .error .tooManyLinks
        | links + 1 =>
          let start := if Path.isAbsolute target then [] else place
          follow tree fuel links start (Path.components target ++ parts)
      | some _ => follow tree fuel links (place ++ [part]) parts

/-- The place that an absolute path leads to. -/
def locate (tree : FileTree) (path : String) : Except OsFault (List String) :=
  if path = "" then .error .noEntry
  else follow tree (path.length + 100000) 40 [] (Path.components path)

/-- What an absolute path leads to. -/
def status (tree : FileTree) (path : String) : Except OsFault FileKind := do
  let place ← tree.locate path
  match tree.kind? place with
  | some kind => return kind
  | none => throw .noEntry

/-- Whether a path itself is a symbolic link. -/
def isLink (tree : FileTree) (path : String) : Bool :=
  match tree.locate ((Path.parent? path).getD "/") with
  | .ok place =>
    match tree.kind? (place ++ [Path.fileName path]) with
    | some (.link _) => true
    | _ => false
  | .error _ => false

def exists? (tree : FileTree) (path : String) : Bool := (tree.status path).toOption.isSome

def isDirectory (tree : FileTree) (path : String) : Bool :=
  (tree.status path).toOption == some .directory

/-- Open a file for appending: an empty file is put where nothing is yet, if its directory exists. -/
def touch (tree : FileTree) (path : String) : FileTree :=
  if tree.exists? path || Text.endsWith "/" path then tree
  else
    match (Path.parent? path).map tree.locate with
    | some (.ok place) =>
      if tree.kind? place = some .directory then tree.put (place ++ [Path.fileName path]) (.file "" false)
      else tree
    | _ => tree

/-- The names in a directory, in increasing order. -/
def list (tree : FileTree) (path : String) : Except OsFault (List String) := do
  let place ← tree.locate path
  if tree.kind? place ≠ some .directory then throw .notDirectory
  let names := tree.entries.filterMap fun entry =>
    if entry.1.dropLast == place then entry.1.getLast? else none
  return names.mergeSort fun first second => decide (first ≤ second)

/-- The content of a file. -/
def read (tree : FileTree) (path : String) : Except OsFault String := do
  match ← tree.status path with
  | .file content _ => return content
  | .directory => throw .isDirectory
  | _ => return ""

def isExecutable (tree : FileTree) (path : String) : Bool :=
  match (tree.status path).toOption with
  | some (.file _ executable) => executable
  | some .utility => true
  | _ => false

end FileTree
end TabSpec
