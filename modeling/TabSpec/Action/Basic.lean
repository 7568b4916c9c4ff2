import TabSpec.Completion.Basic
import TabSpec.Context
import TabSpec.Traced

/-! Actions: deferred requests for candidates, and how actions are put together. -/
namespace TabSpec

/-- What to do with a context to obtain candidates. -/
abbrev Action := Context → Traced Completion

namespace Action

def ofCompletion (completion : Completion) : Action := fun _ => pure completion

def ofMessage (message : String) : Action := ofCompletion (.ofMessage message)

def ofValues (values : List String) : Action := ofCompletion (.ofValues values)

def ofSuggestions (suggestions : List Suggestion) : Action :=
  ofCompletion (.ofSuggestions suggestions)

/-- Change what an action answers. -/
def map (change : Context → Completion → Completion) (action : Action) : Action := fun context =>
  return change context (← action context)

/-- All actions in order, with their answers merged. -/
def batch (actions : List Action) : Action := fun context =>
  return .merge (← actions.mapM fun action => action context)

/-- A value typed in parts: the completed segments, their text with its dividers, and the segment
under the cursor. -/
structure Segments where
  parts : List String
  front : String
  current : String
deriving Repr, DecidableEq

/-- Cut a value at its dividers; an empty divider stands behind every character. -/
def Segments.of (divider value : String) : Segments :=
  if divider = "" then
    { parts := value.toList.map fun c => String.ofList [c], front := value, current := "" }
  else
    match Text.splitLast? divider value with
    | none => { parts := [], front := "", current := value }
    | some (before, current) =>
      { parts := Text.split divider before, front := before ++ divider, current }

/-- Complete one segment at a time: the action sees the completed segments as parts and the segment
under the cursor as value. -/
def segmented (divider : String) (action : Action) : Action := fun context => do
  let segments := Segments.of divider context.value
  let result ← action { context with parts := segments.parts, value := segments.current }
  let result := result.prependValues segments.front
  return match Text.last? divider with
    | some last => result.addNospace (String.ofList [last])
    | none => result

end Action
end TabSpec
