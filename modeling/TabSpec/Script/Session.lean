import TabSpec.Machine.Files
import TabSpec.Script.Syntax
import TabSpec.Text.Octets

/-! The state in which a shell script runs, and the ways in which it may leave its course. -/
namespace TabSpec.Script

/-- The shells differ in a few built-in commands and in the wording of faults. -/
inductive Dialect
  | standard
  | bash
deriving Repr, DecidableEq, Inhabited

structure Variable where
  name : List Char
  value : List Char
  exported : Bool
deriving Inhabited

/-- Where output goes. -/
inductive Sink
  | stream (number : Nat)
  | file (place : List String)
  | nothing
deriving Repr, DecidableEq, Inhabited

/-- A run of octets with the stream that it was written to. -/
structure Chunk where
  stream : Nat
  octets : List Char
deriving Inhabited

structure Session where
  dialect : Dialect
  /-- What `$0` stands for. -/
  name : List Char
  arguments : List (List Char)
  bindings : List Variable
  /-- Variables of the running function, as they were before it. -/
  shadowed : List (List Char × Option Variable)
  functions : List (List Char × Command)
  status : Nat
  /-- How the last script inside a word of the current command ended. -/
  captured : Option Nat
  /-- The number of the process. -/
  process : Nat
  directory : String
  files : FileTree
  input : List Char
  /-- Where each descriptor leads. -/
  sinks : List (Nat × Sink)
  /-- The number of streams in use. -/
  streams : Nat
  /-- What was written to streams, the last chunk first. -/
  written : List Chunk
  exitOnError : Bool
  unsetIsError : Bool
  /-- Whether patterns stand for the paths that match them. -/
  findsPaths : Bool
  /-- What runs when the shell ends. -/
  onExit : Option (List Char)
  /-- Whether the current command decides a condition, so that its failure is no error. -/
  inCondition : Bool
  line : Nat
deriving Inhabited

/-- How a script leaves its course. -/
inductive Flow
  | exit
  | leave
  | break (levels : Nat)
  | next (levels : Nat)
  | killed (signal : Nat)
deriving Repr, DecidableEq

abbrev Run := ExceptT Flow (StateM Session)

/-- A file with octets added at its end. -/
private def appendOctets (tree : FileTree) (place : List String) (octets : List Char) : FileTree :=
  match tree.kind? place with
  | some (.file content executable) =>
    tree.put place (.file (Text.ofOctets (Text.toOctets content ++ octets)) executable)
  | some _ => tree
  | none => tree.put place (.file (Text.ofOctets octets) false)

namespace Session

def valueOf? (session : Session) (name : List Char) : Option (List Char) :=
  (session.bindings.find? (·.name == name)).map (·.value)

def assign (session : Session) (name value : List Char) : Session :=
  match session.bindings.find? (·.name == name) with
  | some _ =>
    { session with bindings := session.bindings.map fun old =>
        if old.name == name then { old with value } else old }
  | none => { session with bindings := session.bindings ++ [⟨name, value, false⟩] }

def setExported (session : Session) (name : List Char) : Session :=
  { session with bindings := session.bindings.map fun old =>
      if old.name == name then { old with exported := true } else old }

def unset (session : Session) (name : List Char) : Session :=
  { session with bindings := session.bindings.filter (·.name != name) }

/-- Give variables back the state that they had before. -/
def restore (session : Session) (before : List (List Char × Option Variable)) : Session :=
  before.foldl (fun session (name, old) =>
    let session := session.unset name
    { session with bindings := session.bindings ++ old.toList }) session

/-- The state of variables, to be restored later. -/
def remember (session : Session) (names : List (List Char)) :
    List (List Char × Option Variable) :=
  names.map fun name => (name, session.bindings.find? (·.name == name))

def write (session : Session) (descriptor : Nat) (octets : List Char) : Session :=
  if octets.isEmpty then session
  else
    match session.sinks.lookup descriptor with
    | some (.stream number) => { session with written := ⟨number, octets⟩ :: session.written }
    | some (.file place) => { session with files := appendOctets session.files place octets }
    | some .nothing => session
    | none => session

/-- Let a descriptor lead elsewhere. -/
def redirect (session : Session) (descriptor : Nat) (sink : Sink) : Session :=
  { session with sinks := (descriptor, sink) :: session.sinks.filter (·.1 != descriptor) }

/-- The environment that programs receive. -/
def environment (session : Session) : List (List Char × List Char) :=
  (session.bindings.filter (·.exported)).map fun entry => (entry.name, entry.value)

/-- The absolute path of a path written in octets. -/
def path (session : Session) (octets : List Char) : String :=
  Path.join session.directory (Text.ofOctets octets)

/-- The front of a message about a fault. -/
def complaint (session : Session) : List Char :=
  match session.dialect with
  | .standard => session.name ++ ": ".toList ++ (toString session.line).toList ++ ": ".toList
  | .bash => session.name ++ ": line ".toList ++ (toString session.line).toList ++ ": ".toList

/-- Characters at which the results of expansions are split. -/
def separators (session : Session) : List Char :=
  (session.valueOf? "IFS".toList).getD [' ', '\t', '\n']

/-- The value of a variable, an argument or a special parameter. -/
def parameter? (session : Session) (name : List Char) : Option (List Char) :=
  match name with
  | ['#'] => some (toString session.arguments.length).toList
  | ['?'] => some (toString session.status).toList
  | ['$'] => some (toString session.process).toList
  | ['!'] => none
  | ['-'] => some (if session.exitOnError then ['e'] else [])
  | ['0'] => some session.name
  | ['@'] | ['*'] =>
    if session.arguments.isEmpty then none else some ([' '].intercalate session.arguments)
  | name =>
    if name.all Char.isDigit then
      session.arguments[name.foldl (fun value c => value * 10 + (c.toNat - 48)) 0 - 1]?
    else session.valueOf? name

end Session

/-- All octets written to a stream, in order. -/
def collect (stream : Nat) (written : List Chunk) : List Char :=
  (written.reverse.filter (·.stream == stream)).flatMap (·.octets)

namespace Run

/-- Run something and tell how it left its course, if it did. -/
def observe {Value : Type} (action : Run Value) : Run (Except Flow Value) :=
  ExceptT.mk (Except.ok <$> action.run)

/-- Run something and undo a change of the state behind it, however it ends. -/
def afterwards {Value : Type} (undo : Session → Session) (action : Run Value) : Run Value := do
  let result ← observe action
  modify undo
  match result with
  | .ok value => return value
  | .error flow => throw flow

def setStatus (status : Nat) : Run Unit := modify ({ · with status })

/-- Write a message about a fault and set the status. -/
def complain (message : List Char) (status : Nat) : Run Unit :=
  modify fun session =>
    { session.write 2 (session.complaint ++ message ++ ['\n']) with status }

/-- Run something whose failure is no error. -/
def asCondition (action : Run Unit) : Run Unit := do
  let outer := (← get).inCondition
  modify ({ · with inCondition := true })
  afterwards ({ · with inCondition := outer }) action

/-- Leave the script if a command failed and failures are errors. -/
def checkFailure : Run Unit := do
  let session ← get
  if session.status ≠ 0 && session.exitOnError && !session.inCondition then throw .exit

/-- Keep what a process leaves behind when its own state is gone. -/
def inherit (outer inner : Session) : Session :=
  { outer with files := inner.files, written := inner.written, input := inner.input,
               status := inner.status }

/-- Run something on a copy of the state. -/
def inSubshell (action : Run Unit) : Run Unit := do
  let outer ← get
  let result ← observe action
  modify (inherit outer)
  match result with
  | .error (.killed signal) => throw (.killed signal)
  | _ => return

/-- Run something and take its output. -/
def collecting (action : Run Unit) : Run (List Char) := do
  let outer ← get
  let number := outer.streams
  set { outer.redirect 1 (.stream number) with streams := number + 1 }
  action
  let inner ← get
  set { inner with streams := number, sinks := outer.sinks,
                   written := inner.written.filter (·.stream != number) }
  return collect number inner.written

/-- Run the body of a loop; the answer tells whether the loop goes on. -/
def loopBody (action : Run Unit) : Run Bool := do
  match ← observe action with
  | .ok () => return true
  | .error (.next levels) => if levels ≤ 1 then return true else throw (.next (levels - 1))
  | .error (.break levels) => if levels ≤ 1 then return false else throw (.break (levels - 1))
  | .error flow => throw flow

end Run
end TabSpec.Script
