import TabSpec.Json.Basic
import TabSpec.Spec.Basic

/-! Specifications as data for other programs. Empty fields are left out, except for the name, the
parsing mode and the completion. -/
namespace TabSpec

private def field (name : String) (present : Bool) (json : Json) : List (String × Json) :=
  if present then [(name, json)] else []

private def ofLists (lists : List (List String)) : Json := .array (lists.map Json.ofStrings)

private def ofMap {Value : Type} (write : Value → Json) (map : OrderedMap Value) : Json :=
  .object (map.entries.map fun (name, value) => (name, write value))

def FlagEntry.toJson : FlagEntry → Json
  | .description text => .string text
  | .extended text nargs =>
    .object [("description", .string text), ("nargs", .ofInt nargs)]

def RunSource.toJson : RunSource → Json
  | .list argv => .ofStrings argv
  | .text content => .string content

def CompletionSpec.toJson (spec : CompletionSpec) : Json :=
  .object (
    field "flag" (!spec.flag.isEmpty) (ofMap Json.ofStrings spec.flag) ++
    field "positional" (!spec.positional.isEmpty) (ofLists spec.positional) ++
    field "positionalany" (!spec.positionalAny.isEmpty) (.ofStrings spec.positionalAny) ++
    field "dash" (!spec.dash.isEmpty) (ofLists spec.dash) ++
    field "dashany" (!spec.dashAny.isEmpty) (.ofStrings spec.dashAny))

mutual

def CommandSpec.toJson : CommandSpec → Json
  | ⟨name, aliases, description, group, hidden, parsing, flags, persistentFlags, exclusiveFlags, run,
      completion, commands⟩ =>
    .object (
      [("name", .string name)] ++
      field "aliases" (!aliases.isEmpty) (.ofStrings aliases) ++
      field "description" (description != "") (.string description) ++
      field "group" (group != "") (.string group) ++
      field "hidden" hidden (.bool hidden) ++
      [("parsing", .string parsing.name)] ++
      field "flags" (!flags.isEmpty) (ofMap FlagEntry.toJson flags) ++
      field "persistentflags" (!persistentFlags.isEmpty)
        (ofMap FlagEntry.toJson persistentFlags) ++
      field "exclusiveflags" (!exclusiveFlags.isEmpty) (ofLists exclusiveFlags) ++
      (run.map fun run => ("run", run.source.toJson)).toList ++
      [("completion", completion.toJson)] ++
      field "commands" (!commands.isEmpty) (.array (CommandSpec.listToJson commands)))

def CommandSpec.listToJson : List CommandSpec → List Json
  | [] => []
  | spec :: rest => spec.toJson :: CommandSpec.listToJson rest

end

end TabSpec
