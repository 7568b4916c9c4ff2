import TabSpec.Action.Basic
import TabSpec.Argument
import TabSpec.Call

/-! Macros and the registry that knows them by name. The program's own macros have names behind
`_.`, so that they never collide with the core macros. -/
namespace TabSpec

inductive ArgumentShape
  | none
  | single
  | variadic
deriving Repr, DecidableEq, Inhabited

def ArgumentShape.name : ArgumentShape → String
  | .none => "none"
  | .single => "single"
  | .variadic => "variadic"

/-- What a macro does with the text of its argument. -/
inductive MacroBody
  | action (build : String → Except SpecFault Action)
  /-- Complete with the specification that the argument names. -/
  | nested

structure Macro where
  shape : ArgumentShape
  signature : String
  description : String
  /-- Whether positions completed by the macro take arguments as they are, without flags. -/
  raw : Bool
  body : MacroBody

namespace Macro

/-- A macro without argument. -/
def ofAction (action : Action) : Macro := ⟨.none, "", "", false, .action fun _ => .ok action⟩

/-- A macro with one argument. -/
def ofSingle {Value : Type} [MacroArgument Value] (action : Value → Action) : Macro :=
  ⟨.single, MacroArgument.signature Value, "", false,
    .action fun text => (MacroArgument.decode text).map action⟩

/-- A macro with any number of arguments. -/
def ofVariadic {Value : Type} [MacroArgument Value] (action : List Value → Action) : Macro :=
  ⟨.variadic, MacroArgument.signature (List Value), "", false,
    .action fun text => (MacroArgument.decodeList text).map action⟩

/-- The macro that completes with another specification. -/
def nestedSpec : Macro := ⟨.single, SpecTarget.signature, "", false, .nested⟩

def described (entry : Macro) (description : String) : Macro := { entry with description }

/-- The macro, taking arguments as they are. -/
def takingRaw (entry : Macro) : Macro := { entry with raw := true }

/-- The action for the text of an argument; `nested` completes with another specification. -/
def action (nested : SpecTarget → Action) (entry : Macro) (argument : String) :
    Except SpecFault Action :=
  let argument := if entry.shape = .none then "" else argument
  match entry.body with
  | .action build => build argument
  | .nested => (SpecTarget.decode argument).map nested

end Macro

/-- The macros known under their names, and the name of the program they belong to. -/
structure Registry where
  program : String
  macros : OrderedMap Macro

namespace Registry

/-- Stands before the names of the program's own macros. -/
def customFront : String := "_."

def empty (program : String) : Registry := ⟨program, .empty⟩

def addCore (registry : Registry) (name : String) (entry : Macro) : Registry :=
  { registry with macros := registry.macros.insert name entry }

/-- Register a macro of the program's own. -/
def addCustom (registry : Registry) (name : String) (entry : Macro) : Registry :=
  registry.addCore (customFront ++ name) entry

def get? (registry : Registry) (name : String) : Option Macro := registry.macros.get? name

def getCustom? (registry : Registry) (name : String) : Option Macro :=
  registry.get? (customFront ++ name)

/-- The macro that a call names. -/
def lookup (registry : Registry) (call : String) : Except SpecFault Macro := do
  let (name, _) ← Call.parse call
  match registry.get? name with
  | some entry => return entry
  | none => throw (.unknownMacro call)

/-- The names of the program's own macros, in increasing order. -/
def customNames (registry : Registry) : List String :=
  registry.macros.keys.filterMap (Text.stripFront? customFront)

/-- All names with their signatures, in increasing order. -/
def signatures (registry : Registry) : List (String × String) :=
  registry.macros.entries.map fun (name, entry) => (name, entry.signature)

/-- The action that a call stands for. -/
def actionOf (registry : Registry) (nested : SpecTarget → Action) (call : String) :
    Except SpecFault Action := do
  let entry ← registry.lookup call
  let (_, argument) ← Call.parse call
  entry.action nested argument

/-- A call with the program's name in place of the mark of its own macros. -/
def localCall (registry : Registry) (call : String) : String :=
  if registry.program = "" then call
  else
    match Text.stripFront? ("$" ++ registry.program ++ ".") call with
    | some rest => "$" ++ customFront ++ rest
    | none => call

end Registry
end TabSpec
