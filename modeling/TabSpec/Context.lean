import TabSpec.Machine.Basic
import TabSpec.Substitution

/-! The context in which an action is asked for candidates. -/
namespace TabSpec

structure Context where
  /-- The positional arguments before the word under the cursor. -/
  args : List String
  /-- The typed part of the word under the cursor. -/
  value : String
  /-- The completed segments of a word that is typed in parts. -/
  parts : List String
  directory : String
  /-- Variables set for the evaluation, beyond those of the process. -/
  bindings : OrderedMap String
  machine : Machine
deriving Inhabited

namespace Context

/-- Set a variable. -/
def set (context : Context) (name value : String) : Context :=
  { context with bindings := context.bindings.insert name value }

/-- The value of a variable; those of the context hide those of the process. -/
def get? (context : Context) (name : String) : Option String :=
  match context.bindings.get? name with
  | some value => some value
  | none => context.machine.environment.get? name

/-- Drop the variables that an enclosing evaluation has set. -/
def clearVariables (context : Context) : Context :=
  { context with bindings := context.bindings.filterKeys fun name => !Text.startsWith "C_" name }

/-- Replace the placeholders of a text by variables. -/
def substitute (context : Context) (text : String) : Except SpecFault String :=
  Substitution.expand context.get? text

/-- A path seen from the context's directory. -/
def resolve (context : Context) (path : String) : String :=
  Path.join context.directory (context.machine.expandTilde path)

/-- Set one numbered variable for each text. -/
def setNumbered (context : Context) (name : String) (texts : List String) : Context :=
  texts.zipIdx.foldl (fun context (text, index) => context.set (name ++ toString index) text) context

/-- Set the variables that describe the parts and the value. -/
def exportParts (context : Context) : Context :=
  (context.setNumbered "C_PART" context.parts).set "C_VALUE" context.value

/-- Set the variables that describe the arguments and the value. -/
def exportArguments (context : Context) : Context :=
  ((context.setNumbered "C_ARG" context.args).set "C_VALUE" context.value).set "C_CALLBACK"
    context.value

end Context
end TabSpec
