import TabSpec.Json.Writer
import TabSpec.OrderedMap
import TabSpec.Text.Blank
import TabSpec.Text.Cut

/-! Diagnostics: what is recorded while a request is served, and how a record is written as a line
of text or of JSON. -/
namespace TabSpec.Log

inductive Level
  | debug
  | info
  | warn
deriving Repr, DecidableEq, Inhabited

def Level.name : Level → String
  | .debug => "debug"
  | .info => "info"
  | .warn => "warn"

/-- Higher levels are more urgent. -/
def Level.rank : Level → Nat
  | .debug => 0
  | .info => 1
  | .warn => 2

/-- Read the name of a level in either case, with blanks around it. -/
def Level.parse (text : String) : Option Level :=
  match (Text.trim text).toLower with
  | "debug" => some .debug
  | "trace" => some .debug
  | "info" => some .info
  | "warn" => some .warn
  | "warning" => some .warn
  | _ => none

structure Record where
  level : Level
  component : String
  event : String
  message : Option String
  data : Option Json
deriving Inhabited

/-- The fields of an object in increasing order of their names. -/
def sortedObject (fields : List (String × Json)) : Json := .object (OrderedMap.ofList fields).entries

def Record.toJson (record : Record) (timestamp : String) : Json :=
  .object ([("timestamp", .string timestamp), ("level", .string record.level.name),
      ("component", .string record.component), ("event", .string record.event)] ++
    (record.message.map fun message => ("message", Json.string message)).toList ++
    (record.data.map fun data => ("data", data)).toList)

/-- The form `[level COMPONENT] event: message data`. -/
def Record.toText (record : Record) : String :=
  "[" ++ record.level.name ++ " " ++ record.component ++ "] " ++ record.event ++
    (match record.message with
      | some message => ": " ++ message
      | none => "") ++
    match record.data with
    | some data => " " ++ data.render
    | none => ""

/-- Which records are written, and how. -/
structure Settings where
  enabled : Bool
  json : Bool
  /-- A file that lines are appended to. -/
  file : Option String
  least : Level
deriving Repr, DecidableEq, Inhabited

def Settings.default : Settings := ⟨false, true, none, .warn⟩

def Settings.accepts (settings : Settings) (record : Record) : Bool :=
  settings.enabled && settings.least.rank ≤ record.level.rank

/-- The lines written for the records that are accepted. -/
def Settings.lines (settings : Settings) (timestamp : String) (records : List Record) :
    List String :=
  (records.filter settings.accepts).map fun record =>
    if settings.json then (record.toJson timestamp).render else record.toText

end TabSpec.Log
