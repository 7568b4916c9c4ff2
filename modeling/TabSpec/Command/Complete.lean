import TabSpec.Command.Walk

/-! Completing the last argument of a command line: choosing what it is, and asking for
candidates. -/
namespace TabSpec

/-- What the last argument of a command line is. -/
inductive Target
  /-- A value of a flag that still wants one. -/
  | flagValue (flag : Flag)
  /-- An argument behind `--`, after these. -/
  | dash (earlier : List String)
  /-- A value behind an equals sign. -/
  | inlineValue (flag : Flag) (name value : String)
  | flagName
  | positional (index : Nat)
deriving Repr, DecidableEq

namespace Walk

/-- The flag whose value is written behind an equals sign in a token. -/
def inlineFlag? (walk : Walk) (token : String) : Option (Flag × String × String) := do
  let (name, value) ← Text.splitOnce? "=" token
  let flag ← walk.command.lookupToken name
  if flag.takesValue then some (flag, name, value) else none

/-- Tell what a last argument is behind the arguments walked so far. -/
def target (walk : Walk) (value : String) : Target :=
  match walk.pending, walk.dash with
  | some (flag, _), _ => .flagValue flag
  | none, some dash => .dash dash
  | none, none =>
    if isDashed value && walk.flagsActive then
      match walk.inlineFlag? value with
      | some (flag, name, inline) => .inlineValue flag name inline
      | none => .flagName
    else .positional walk.positional.length

/-- What is recorded about a walk. -/
def summary (walk : Walk) : List (String × Json) :=
  [("command", .string walk.command.name),
   ("positional", Json.ofStrings walk.positional),
   ("flags", .object (walk.flags.entries.map fun (name, values) => (name, Json.ofStrings values))),
   ("dash", Json.ofOption Json.ofStrings walk.dash),
   ("pending", Json.ofOption Json.string (walk.pending.map (·.1.name)))]

/-- Whether another flag that excludes this one is set. -/
def isExcluded (walk : Walk) (flag : Flag) : Bool :=
  walk.command.exclusiveFlags.any fun group =>
    group.contains flag.name &&
      group.any fun name => name != flag.name && walk.flags.contains name

/-- Whether a flag may still be set and is not hidden. -/
def isOffered (walk : Walk) (flag : Flag) : Bool :=
  !flag.hidden && (flag.repeatable || !walk.flags.contains flag.name) && !walk.isExcluded flag

/-- The forms of a flag as candidates. -/
def flagCandidates (longOnly : Bool) (flag : Flag) : List Suggestion :=
  let style :=
    if flag.optionalArg then "yellow"
    else if flag.takesValue && flag.repeatable then "magenta"
    else if flag.takesValue then "blue"
    else ""
  let candidate (form tag : String) : Suggestion :=
    ((Suggestion.described form flag.description).styled style).tagged tag
  let long := flag.longForm?.toList.filter fun form => !longOnly || Text.startsWith "--" form
  let short := flag.shortForm?.toList.filter fun _ => !longOnly
  (long.map (candidate · "longhand flags")) ++ (short.map (candidate · "shorthand flags"))

/-- The flags that may be set next. -/
def flagNames (walk : Walk) (value : String) : Completion :=
  let flags := walk.command.allFlags.filter walk.isOffered
  (Completion.ofSuggestions
    (flags.flatMap (flagCandidates (Text.startsWith "--" value)))).addNospace "."

end Walk

namespace Command

/-- The subcommands under all their names. -/
def subcommands (command : Command) : Completion :=
  .ofSuggestions ((command.commands.filter (!·.hidden)).flatMap fun subcommand =>
    (subcommand.name :: subcommand.aliases).map fun name =>
      (Suggestion.described name subcommand.description).tagged "commands")

variable (registry : Registry) (nested : SpecTarget → Action)

/-- Ask what completes a position, if anything does. -/
def askSlot (slot : Option Slot) (context : Context) : Traced Completion :=
  match slot with
  | some slot => slot.action registry nested context
  | none => pure .empty

/-- The candidates for a value of a flag; unless they say otherwise, the flag's description is the
usage. -/
def flagValue (command : Command) (flag : Flag) (context : Context) : Traced Completion := do
  let result ← askSlot registry nested (command.flagCompletion.get? flag.name) context
  return if result.usage = "" then { result with usage := flag.description } else result

/-- The candidates for a target, in the context of its walk. -/
def answer (walk : Walk) (context : Context) : Target → Traced Completion
  | .flagValue flag => flagValue registry nested walk.command flag context
  | .dash earlier =>
    askSlot registry nested (walk.command.dash[earlier.length]?.or walk.command.dashAny)
      { context with args := earlier }
  | .inlineValue flag name value => do
    let result ← flagValue registry nested walk.command flag { context with value }
    return result.prependValues (name ++ "=")
  | .flagName => pure (walk.flagNames context.value)
  | .positional index => do
    let slot := walk.command.positional[index]?.or walk.command.positionalAny
    let result ← askSlot registry nested slot context
    return if index = 0 then .merge [walk.command.subcommands, result] else result

/-- Complete the last of the arguments. -/
def complete (command : Command) (base : Context) (args : List String) : Traced Completion := do
  let value := args.getLast?.getD ""
  let walk := command.walk args.dropLast
  Traced.note .debug "COMPLETE" "walk" walk.summary
  answer registry nested walk { walk.context base with value } (walk.target value)

end Command
end TabSpec
