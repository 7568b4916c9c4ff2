import TabSpec.Action.Adjust
import TabSpec.Traversal

/-! Modifiers: calls that are layered on an action. -/
namespace TabSpec

inductive Modifier
  | chdir
  | filter
  | filterArgs
  | list
  | multiParts
  | noSpace
  | prepend
  | retain
  | shift
  | split
  | splitPipeline
  | append
  | suppress
  | style
  | tag
  | uniqueList
  | usage
deriving Repr, DecidableEq

namespace Modifier

def name : Modifier → String
  | .chdir => "chdir"
  | .filter => "filter"
  | .filterArgs => "filterargs"
  | .list => "list"
  | .multiParts => "multiparts"
  | .noSpace => "nospace"
  | .prepend => "prefix"
  | .retain => "retain"
  | .shift => "shift"
  | .split => "split"
  | .splitPipeline => "splitp"
  | .append => "suffix"
  | .suppress => "suppress"
  | .style => "style"
  | .tag => "tag"
  | .uniqueList => "uniquelist"
  | .usage => "usage"

def all : List Modifier :=
  [.chdir, .filter, .filterArgs, .list, .multiParts, .noSpace, .prepend, .retain, .shift, .split,
   .splitPipeline, .append, .suppress, .style, .tag, .uniqueList, .usage]

def ofName? (name : String) : Option Modifier := all.find? (·.name == name)

theorem ofName?_eq_some_iff {name : String} {modifier : Modifier} :
    ofName? name = some modifier ↔ name = modifier.name := by
  constructor
  · intro found
    have same : (modifier.name == name) = true := by simpa using List.find?_some found
    exact (eq_of_beq same).symm
  · rintro rfl
    cases modifier <;> rfl

/-- The modifier of that name. -/
def ofName (name : String) : Except SpecFault Modifier :=
  match ofName? name with
  | some modifier => .ok modifier
  | none => .error (.unknownMacro ("$" ++ name))

/-- The modifier that a call names before its first parenthesis. -/
def ofCall? (call : String) : Option Modifier := (Text.stripFront? "$" (Call.head call)).bind ofName?

/-- Change the directory to a path, or to one that is looked up when the action runs. -/
def changeDirectory (argument : String) (action : Action) : Except SpecFault Action :=
  if Text.startsWith "$" argument then do
    let traversal ← Traversal.parse argument
    return action.inDirectory fun context => (traversal.resolve context).mapError .usage
  else .ok (action.inDirectory fun context => .ok (context.resolve argument))

/-- Layer a modifier with the text of its argument on an action. -/
def apply (action : Action) (argument : String) : Modifier → Except SpecFault Action
  | .chdir => changeDirectory argument action
  | .filter => return action.dropValues (← MacroArgument.decodeList argument)
  | .filterArgs => return action.dropArguments
  | .list => return action.entries argument
  | .multiParts => return action.stepwise (← MacroArgument.decodeList argument)
  | .noSpace => return action.withoutSpace argument
  | .prepend => return action.behind argument
  | .retain => return action.keepValues (← MacroArgument.decodeList argument)
  | .shift => do
    let count : UInt64 ← MacroArgument.decode argument
    return action.shifted count.toNat
  | .split => return action.words false
  | .splitPipeline => return action.words true
  | .append => return action.followedBy argument
  | .suppress => return action.suppress argument
  | .style => return action.styled argument
  | .tag => return action.tagged argument
  | .uniqueList => return action.distinctEntries argument
  | .usage => return action.withUsage argument

/-- The action that a call makes of another one, in a context that fills its placeholders. -/
def resolve (action : Action) (call : String) (context : Context) : Except SpecFault Action := do
  let call ← context.substitute call
  match ofCall? call with
  | none => throw (.unknownMacro call)
  | some modifier =>
    let (_, argument) ← Call.parse call
    modifier.apply action argument

/-- Layer a call on an action. The placeholders of the call are filled when the action runs, and a
call without meaning leaves its fault as the only answer. -/
def modify (action : Action) (call : String) : Action := fun context =>
  match resolve action.withParts call context.exportParts with
  | .ok modified => modified context
  | .error fault => pure (.ofMessage fault.message)

end Modifier
end TabSpec
