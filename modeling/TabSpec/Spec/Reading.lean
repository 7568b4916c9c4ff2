import TabSpec.Machine.Basic
import TabSpec.Spec.Basic

/-! Reading specifications from YAML. -/
namespace TabSpec

/-- A mapping from texts; of entries with one key the last one stays. -/
def Yaml.Node.mapOf? {Value : Type} (read : Yaml.Node → Option Value) (node : Yaml.Node) :
    Option (OrderedMap Value) := do
  let entries ← node.entries?
  return .ofList (← entries.mapM fun (name, value) => (read value).map (name, ·))

def Yaml.Node.listOf? {Value : Type} (read : Yaml.Node → Option Value) (node : Yaml.Node) :
    Option (List Value) := do (← node.items?).mapM read

/-- The text of a literal: a string, or a number or truth value as it is commonly written. -/
def Yaml.ScalarValue.literal? : Yaml.ScalarValue → Option String
  | .null => none
  | .bool value => some (toString value)
  | .integer value => some (toString value)
  | .float value => some value.render
  | .string value => some value

/-- One expression. -/
def Expression.ofNode? (node : Yaml.Node) : Option String :=
  node.scalarValue?.bind Yaml.ScalarValue.literal?

/-- A list of expressions, or one alone; null is an empty list. -/
def Expression.listOfNode? (node : Yaml.Node) : Option (List String) :=
  match node with
  | .sequence tag items =>
    if (Yaml.localTag? tag).isSome then none else items.mapM ofNode?
  | .scalar tag _ _ =>
    if (Yaml.localTag? tag).isNone ∧ node.scalarValue? = some .null then some []
    else (ofNode? node).map ([·])
  | _ => none

namespace FlagEntry

/-- The field that a key of a record stands for: its name, or its index. -/
def fieldOf? (node : Yaml.Node) : Option (Option String) :=
  match node.stringValue?, node.integerValue? with
  | some name, _ => some (if name = "description" ∨ name = "nargs" then some name else none)
  | none, some index =>
    if index < 0 then none
    else some (if index = 0 then some "description" else if index = 1 then some "nargs" else none)
  | none, none => none

/-- Read an entry: a string, or a record with a description and a number of arguments. -/
def ofNode? (node : Yaml.Node) : Option FlagEntry :=
  if !node.isUntagged then none
  else
    match node with
    | .mapping _ entries => do
      let named ← entries.mapM fun (key, value) => (fieldOf? key).map (·, value)
      let fields := named.filterMap fun (name, value) => name.map (·, value)
      let description ← Yaml.Node.field fields "description" "" Yaml.Node.stringValue?
      let nargs ← Yaml.Node.field fields "nargs" 0 Yaml.Node.integerValue?
      guard ((Text.IntegerRange.signed 32).contains nargs)
      return .extended description nargs
    | _ => node.stringValue?.map .description

end FlagEntry

namespace RunField

/-- Read a run field: a list of strings, or a text. -/
def ofNode? (node : Yaml.Node) : Option RunField :=
  if !node.isUntagged then none
  else
    match node with
    | .sequence _ items => (items.mapM Yaml.Node.stringValue?).bind fun argv => (ofList argv).toOption
    | _ => node.stringValue?.bind fun text => (parse text).toOption

/-- Read a run field that may be null. -/
def optionOfNode? (node : Yaml.Node) : Option (Option RunField) := do
  match ← node.optional? with
  | none => return none
  | some node => return some (← ofNode? node)

end RunField

def CompletionSpec.ofNode? (node : Yaml.Node) : Option CompletionSpec := do
  let entries ← node.entries?
  let list (name : String) := Yaml.Node.field entries name [] Expression.listOfNode?
  let lists (name : String) :=
    Yaml.Node.field entries name [] (Yaml.Node.listOf? Expression.listOfNode?)
  return {
    flag := ← Yaml.Node.field entries "flag" .empty (Yaml.Node.mapOf? Expression.listOfNode?)
    positional := ← lists "positional"
    positionalAny := ← list "positionalany"
    dash := ← lists "dash"
    dashAny := ← list "dashany" }

namespace CommandSpec

/-- How deep collections may lie in each other. -/
def depthLimit : Nat := 128

/-- Read a command; its subcommands may lie `depth` levels below it. -/
def ofNode? : (depth : Nat) → Yaml.Node → Option CommandSpec
  | 0, _ => none
  | depth + 1, node => do
    let entries ← node.entries?
    let text (name : String) := Yaml.Node.field entries name "" Yaml.Node.text?
    let flags (name : String) :=
      Yaml.Node.field entries name .empty (Yaml.Node.mapOf? FlagEntry.ofNode?)
    return {
      name := ← text "name"
      aliases := ← Yaml.Node.field entries "aliases" [] Yaml.Node.texts?
      description := ← text "description"
      group := ← text "group"
      hidden := ← Yaml.Node.field entries "hidden" false Yaml.Node.bool?
      parsing := ← Yaml.Node.field entries "parsing" .default fun node =>
        node.text?.bind fun text => (ParsingMode.parse text).toOption
      flags := ← flags "flags"
      persistentFlags := ← flags "persistentflags"
      exclusiveFlags := ← Yaml.Node.field entries "exclusiveflags" []
        (Yaml.Node.listOf? Yaml.Node.texts?)
      run := ← Yaml.Node.field entries "run" none RunField.optionOfNode?
      completion := ← Yaml.Node.field entries "completion" .empty CompletionSpec.ofNode?
      commands := ← Yaml.Node.field entries "commands" [] (Yaml.Node.listOf? (ofNode? depth)) }

/-- Read a specification. -/
def ofText (text : String) : Except SpecFault CommandSpec :=
  match (Yaml.document? text).bind (ofNode? (depthLimit / 2)) with
  | some spec => .ok spec
  | none => .error .document

/-- Read a specification from a file; the fault shows the path as `name`. -/
def load (files : FileTree) (path name : String) : Except SpecFault CommandSpec :=
  match files.read path with
  | .error fault => .error (.load name (.os fault))
  | .ok text => (ofText text).mapError fun _ => .load name .malformed

end CommandSpec
end TabSpec
