import TabSpec.Text.Cut

/-! Completions: the candidates for the word under the cursor, with what to say about them. -/
namespace TabSpec

/-- One candidate. -/
structure Suggestion where
  /-- Text put on the command line. -/
  value : String
  /-- Text shown in the list of candidates. -/
  display : String
  description : String := ""
  style : String := ""
  tag : String := ""
deriving Repr, DecidableEq, Inhabited

namespace Suggestion

def ofValue (value : String) : Suggestion := { value, display := value }

def described (value description : String) : Suggestion := { value, display := value, description }

def styled (suggestion : Suggestion) (style : String) : Suggestion := { suggestion with style }

def tagged (suggestion : Suggestion) (tag : String) : Suggestion := { suggestion with tag }

/-- Read a value with a description and a style behind tabs; the style may hold further tabs. -/
def parse (text : String) : Suggestion :=
  match Text.parts ['\t'] text.toList with
  | [] => ofValue ""
  | [value] => ofValue (String.ofList value)
  | [value, description] => described (String.ofList value) (String.ofList description)
  | value :: description :: style =>
    (described (String.ofList value) (String.ofList description)).styled
      (String.ofList (['\t'].intercalate style))

end Suggestion

/-- The answer to a request for completion. -/
structure Completion where
  suggestions : List Suggestion := []
  messages : List String := []
  /-- Characters behind which no space is put; a star stands for all. -/
  nospace : String := ""
  usage : String := ""
deriving Repr, DecidableEq, Inhabited

namespace Completion

def empty : Completion := {}

def ofSuggestions (suggestions : List Suggestion) : Completion := { suggestions }

def ofValues (values : List String) : Completion := ofSuggestions (values.map Suggestion.ofValue)

def ofMessage (message : String) : Completion := { messages := [message] }

def values (completion : Completion) : List String := completion.suggestions.map (·.value)

def isEmpty (completion : Completion) : Bool :=
  completion.suggestions.isEmpty && completion.messages.isEmpty

/-- Append the characters that are not there yet. -/
def addChars (present : List Char) (chars : List Char) : List Char :=
  chars.foldl (fun present c => if present.contains c then present else present ++ [c]) present

/-- Withhold the space behind more characters. A star replaces all others for good. -/
def addNospace (completion : Completion) (chars : String) : Completion :=
  if completion.nospace = "*" then completion
  else if chars.toList.contains '*' then { completion with nospace := "*" }
  else
    { completion with
      nospace := String.ofList (addChars completion.nospace.toList chars.toList) }

/-- Whether the space behind a value is withheld. -/
def suppressesSpace (completion : Completion) (value : String) : Bool :=
  completion.nospace = "*" || (Text.last? value).any completion.nospace.toList.contains

/-- Append the candidates whose value is not there yet. -/
def addSuggestions (present added : List Suggestion) : List Suggestion :=
  added.foldl (fun present suggestion =>
    if present.any (·.value == suggestion.value) then present else present ++ [suggestion]) present

/-- One completion behind another: the first candidate of a value stays, messages are appended, the
characters without space are united, and the last usage is kept. -/
def append (first second : Completion) : Completion :=
  let joint : Completion := {
    suggestions := addSuggestions first.suggestions second.suggestions
    messages := first.messages ++ second.messages
    nospace := first.nospace
    usage := if second.usage = "" then first.usage else second.usage }
  joint.addNospace second.nospace

/-- All completions in order, as one. -/
def merge (completions : List Completion) : Completion := completions.foldl append empty

/-- The candidates that begin with a text. -/
def filterPrefix (completion : Completion) (front : String) : Completion :=
  { completion with
    suggestions := completion.suggestions.filter fun suggestion =>
      Text.startsWith front suggestion.value }

def mapSuggestions (completion : Completion) (change : Suggestion → Suggestion) : Completion :=
  { completion with suggestions := completion.suggestions.map change }

/-- Put a text before every candidate's value. -/
def prependValues (completion : Completion) (front : String) : Completion :=
  completion.mapSuggestions fun suggestion => { suggestion with value := front ++ suggestion.value }

end Completion
end TabSpec
