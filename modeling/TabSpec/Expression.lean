import TabSpec.Action.Process
import TabSpec.Completion.Export
import TabSpec.Modifier
import TabSpec.Registry

/-! Expressions: what a specification lists as the candidates of one position. An element is a
literal, a call of a macro, either with modifiers behind it, or a bare modifier that is layered on
the whole list. -/
namespace TabSpec.Expression

/-- Stands between an element and its modifiers. -/
def separator : String := " ||| "

/-- An element cut at its separators: the head and the modifiers behind it. -/
def headAndModifiers (element : String) : String × List String :=
  match Text.split separator element with
  | head :: modifiers => (head, modifiers)
  | [] => (element, [])

/-- What an element is, once its placeholders are filled. -/
inductive Element
  | literal (text : String)
  | candidates (head : String) (modifiers : List String)
  /-- Modifiers for the whole list. -/
  | wrappers (calls : List String)
  | faulty (message : String)
deriving Repr, DecidableEq

def isCall (text : String) : Bool := Text.startsWith "$" text

/-- Tell what a filled element is. -/
def Element.ofFilled (text : String) : Element :=
  let (head, modifiers) := headAndModifiers text
  if isCall head && (Modifier.ofCall? head).isSome then .wrappers (head :: modifiers)
  else if isCall head || !modifiers.isEmpty then .candidates head modifiers
  else .literal head

/-- Fill the placeholders of an element and tell what it is. -/
def Element.of (context : Context) (text : String) : Element :=
  match context.substitute text with
  | .ok filled => ofFilled filled
  | .error fault => .faulty (fault.message ++ ": " ++ Text.quoted text)

/-- Whom a call is for. -/
inductive Addressee
  /-- A name that is out of use, with the one that replaces it. -/
  | deprecated (name replacement : String)
  /-- Another program, with the rest of the call. -/
  | other (program rest : String)
  /-- The registry, under this call. -/
  | registry (call : String)
deriving Repr, DecidableEq

/-- Tell whom a call with this name is for. -/
def Addressee.of (registry : Registry) (call name : String) : Addressee :=
  let custom := Text.startsWith Registry.customFront name
  let own := registry.program ≠ "" && Text.startsWith ("$" ++ registry.program ++ ".") call
  if Text.startsWith "_" name && !custom then
    .deprecated ("$" ++ name)
      ("$" ++ registry.program ++ "." ++ String.ofList (name.toList.drop 1))
  else if !custom && Text.contains "." name && !own then
    match Text.splitOnce? "." (String.ofList (call.toList.drop 1)) with
    | some (program, rest) => .other program rest
    | none => .registry (registry.localCall call)
  else .registry (registry.localCall call)

/-- Ask another program for candidates: it is told the call, the arguments and the value, and
answers with an exported completion. -/
def delegate (program call : String) : Action := fun context =>
  Action.execute program (["_carapace", "macro", call] ++ context.args ++ [context.value]) none
    Completion.ofOctets context

/-- The action that a call stands for. -/
def resolve (registry : Registry) (nested : SpecTarget → Action) (call : String) :
    Except SpecFault Action := do
  let (name, _) ← Call.parse call
  match Addressee.of registry call name with
  | .deprecated name replacement =>
    return .ofMessage ("\"$_\" deprecated: replace " ++ Text.quoted name ++ " with " ++
      Text.quoted replacement)
  | .other program rest => return delegate program rest
  | .registry call => registry.actionOf nested call

/-- The action of a call; a call without meaning leaves its fault as a message. -/
def call (registry : Registry) (nested : SpecTarget → Action) (text : String) : Action :=
  fun context =>
    match resolve registry nested text with
    | .ok action => action context
    | .error fault => do
      Traced.report .debug "MACRO" "resolve_failed" fault.message
        (some [("call", .string text)])
      return .ofMessage fault.message

/-- Layer modifiers on an action, the first one innermost. -/
def withModifiers (action : Action) (calls : List String) : Action := calls.foldl Modifier.modify action

/-- The action of an element that is no literal and no bare modifier. -/
def Element.action? (registry : Registry) (nested : SpecTarget → Action) : Element → Option Action
  | .candidates head modifiers =>
    let action := if isCall head then call registry nested head
      else Action.ofSuggestions [Suggestion.parse head]
    some (withModifiers action modifiers)
  | .faulty message => some (.ofMessage message)
  | _ => none

def Element.literal? : Element → Option Suggestion
  | .literal text => some (Suggestion.parse text)
  | _ => none

def Element.calls : Element → List String
  | .wrappers calls => calls
  | _ => []

/-- The action of all elements together: first those that are no literals, then the literals, and
the bare modifiers layered on all of them. -/
def combine (registry : Registry) (nested : SpecTarget → Action) (elements : List Element) :
    Action :=
  let literals := elements.filterMap Element.literal?
  let actions := elements.filterMap (Element.action? registry nested) ++
    if literals.isEmpty then [] else [Action.ofSuggestions literals]
  withModifiers (.batch actions) (elements.flatMap Element.calls)

/-- Evaluate a list of expressions. -/
def evaluate (registry : Registry) (nested : SpecTarget → Action) (elements : List String) :
    Action := fun context =>
  let context := context.exportArguments
  combine registry nested (elements.map (Element.of context)) context

/-- Whether a list calls a macro that takes arguments as they are. -/
def takesRaw (registry : Registry) (elements : List String) : Bool :=
  elements.any fun element =>
    let (head, _) := headAndModifiers element
    if isCall head && (Modifier.ofCall? head).isNone then
      match registry.lookup (registry.localCall head) with
      | .ok entry => entry.raw
      | .error _ => false
    else false

end TabSpec.Expression
