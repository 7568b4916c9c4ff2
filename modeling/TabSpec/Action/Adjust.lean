import TabSpec.Action.Basic
import TabSpec.Action.Words
import TabSpec.Regex.Reader
import TabSpec.Text.ShellWords

/-! Actions layered on other actions: each changes the context that the inner action sees, or the
completion that it answers. -/
namespace TabSpec.Action

/-- Change the candidates that an action offers. -/
def keep (wanted : Context → Suggestion → Bool) (action : Action) : Action :=
  action.map fun context completion =>
    { completion with suggestions := completion.suggestions.filter (wanted context) }

/-- Work in another directory, which must exist. -/
def inDirectory (directory : Context → Except SpecFault String) (action : Action) : Action :=
  fun context =>
    match directory context with
    | .error fault => pure (.ofMessage fault.message)
    | .ok directory =>
      match context.machine.files.status directory with
      | .error _ => pure (.ofMessage (directory ++ " does not exist"))
      | .ok .directory => action { context with directory }
      | .ok _ => pure (.ofMessage (directory ++ " is not a directory"))

/-- Drop the candidates with these values. -/
def dropValues (values : List String) : Action → Action :=
  keep fun _ suggestion => !values.contains suggestion.value

/-- Keep only the candidates with these values. -/
def keepValues (values : List String) : Action → Action :=
  keep fun _ suggestion => values.contains suggestion.value

/-- Drop the candidates that were typed as arguments before. -/
def dropArguments : Action → Action :=
  keep fun context suggestion => !context.args.contains suggestion.value

/-- Drop the candidates that were typed as parts before. -/
def dropParts : Action → Action :=
  keep fun context suggestion => !context.parts.contains suggestion.value

/-- Withhold the space behind some characters, or behind all of them. -/
def withoutSpace (chars : String) : Action → Action :=
  map fun _ completion => completion.addNospace (if chars = "" then "*" else chars)

/-- Complete the last entry of a list. -/
def entries (divider : String) (action : Action) : Action :=
  withoutSpace "*" (segmented divider fun context => action { context with parts := [] })

/-- Complete the last entry of a list without repeating an earlier one. -/
def distinctEntries (divider : String) (action : Action) : Action :=
  withoutSpace "*" (segmented divider action.dropParts)

/-- Put a text before the candidates; the inner action sees what is typed behind it. -/
def behind (front : String) (action : Action) : Action := fun context =>
  let value? := match Text.stripFront? front context.value with
    | some rest => some rest
    | none => if Text.startsWith context.value front then some "" else none
  match value? with
  | none => pure .empty
  | some value => return (← action { context with value }).prependValues front

/-- Put a text behind the candidates. -/
def followedBy (back : String) : Action → Action :=
  map fun _ completion => completion.mapSuggestions fun suggestion =>
    { suggestion with value := suggestion.value ++ back }

/-- Leave out the first arguments. -/
def shifted (count : Nat) (action : Action) : Action := fun context =>
  action { context with args := context.args.drop count }

def styled (style : String) : Action → Action :=
  map fun _ completion => completion.mapSuggestions (·.styled style)

def tagged (tag : String) : Action → Action :=
  map fun _ completion => completion.mapSuggestions (·.tagged tag)

def withUsage (usage : String) : Action → Action :=
  map fun _ completion => { completion with usage }

/-- Said of a pattern that is no regular expression. -/
def malformedPattern : String := "regex parse error: not a regular expression"

/-- Drop the messages in which a pattern is found. -/
def suppress (pattern : String) (action : Action) : Action :=
  match Regex.ofText? pattern with
  | none => ofMessage malformedPattern
  | some regex => action.map fun _ completion =>
    { completion with messages := completion.messages.filter fun message => !regex.isMatch message }

/-- Let the inner action see variables that describe the parts and the value. -/
def withParts (action : Action) : Action := fun context => action context.exportParts

/-! ### Segments of whole candidates -/

/-- The length of the typed text up to and including the last divider. -/
def typedLength (dividers : List String) (value : String) : Nat :=
  if dividers.isEmpty then value.length
  else
    (dividers.filter (· != "")).foldl (fun longest divider =>
      match Text.splitLast? divider value with
      | some (before, _) => max longest (before.length + divider.length)
      | none => longest) 0

/-- The length of the first segment of a text, unless the text is all of it. -/
def segmentLength? (dividers : List String) (rest : String) : Option Nat :=
  let ends :=
    if dividers.isEmpty then [1]
    else (dividers.filter (· != "")).filterMap fun divider =>
      (Text.splitOnce? divider rest).map fun (before, _) => before.length + divider.length
  (ends.filter (· < rest.length)).min?

/-- The next segment of a candidate behind the typed text, and whether more follows it. -/
def segmentOf? (dividers : List String) (typed : String) (suggestion : Suggestion) :
    Option (Suggestion × Option Char) := do
  let rest ← Text.stripFront? typed suggestion.value
  match segmentLength? dividers rest with
  | some length =>
    let segment := String.ofList (rest.toList.take length)
    return ({ suggestion with
      value := typed ++ segment, display := segment, description := "" }, Text.last? segment)
  | none => return ({ suggestion with display := rest }, none)

/-- Reduce whole candidates to the segment behind the typed value. -/
def toSegments (dividers : List String) (value : String) (completion : Completion) : Completion :=
  let typed := String.ofList (value.toList.take (typedLength dividers value))
  let segments := completion.suggestions.filterMap (segmentOf? dividers typed)
  segments.foldl (fun result (suggestion, more) =>
    let result := match more with
      | some c => result.addNospace (String.ofList [c])
      | none => result
    { result with suggestions := Completion.addSuggestions result.suggestions [suggestion] })
    { completion with suggestions := [] }

/-- The segments are added one at a time, beginning without any candidate. -/
theorem toSegments_induction {motive : Completion → Prop} {completion : Completion}
    (dividers : List String) (value : String) (start : motive { completion with suggestions := [] })
    (space : ∀ result chars, motive result → motive (result.addNospace chars))
    (add : ∀ result, ∀ suggestion ∈ completion.suggestions, ∀ segment more,
      segmentOf? dividers (String.ofList (value.toList.take (typedLength dividers value)))
        suggestion = some (segment, more) → motive result →
      motive { result with suggestions := Completion.addSuggestions result.suggestions [segment] }) :
    motive (toSegments dividers value completion) := by
  unfold toSegments
  refine List.foldlRecOn _ _ start fun result kept entry member => ?_
  obtain ⟨segment, more⟩ := entry
  obtain ⟨suggestion, present, found⟩ := List.mem_filterMap.mp member
  refine add _ suggestion present segment more found ?_
  cases more with
  | none => exact kept
  | some c => exact space result _ kept

/-- Offer one segment of the candidates at a time. -/
def stepwise (dividers : List String) : Action → Action :=
  map fun context completion => toSegments dividers context.value completion

/-! ### Words of a command line inside a value -/

/-- How a candidate is written in place of the word under the cursor. -/
def quoteLike (token : WordToken) (value : String) : String :=
  match token.quote with
  | some quote => String.ofList [quote] ++ value ++ String.ofList [quote]
  | none => (Text.ShellWords.quote? value).getD value

/-- Put the candidates for one word into the line around it, with a space where the candidate does
not withhold it. -/
def intoLine (front : String) (token : WordToken) (completion : Completion) : Completion :=
  let placed := completion.mapSuggestions fun suggestion =>
    let space := if completion.suppressesSpace suggestion.value then "" else " "
    { suggestion with value := front ++ quoteLike token suggestion.value ++ space }
  { placed with nospace := "*" }

/-- Complete the word under the cursor in a value that holds a command line; the words before it
are the arguments. With `lastCommand` only the last command on the line counts. -/
def words (lastCommand : Bool) (action : Action) : Action := fun context => do
  let line := context.value.toList
  let tokens := WordToken.tokens line
  let tokens := if lastCommand then WordToken.lastCommand tokens else tokens
  let words := tokens.filter WordToken.isWord
  match words.getLast? with
  | none => return .empty
  | some token =>
    let inner := { context with
      args := words.dropLast.map fun word => String.ofList word.text
      parts := []
      value := String.ofList token.text }
    return intoLine (String.ofList (line.take token.start)) token (← action inner)

end TabSpec.Action
