import TabSpec.Command.Basic
import TabSpec.Traced

/-! Assembling commands from their specifications. -/
namespace TabSpec

/-- What a command hands on to its subcommands. -/
structure Inheritance where
  flags : List Flag
  completion : OrderedMap Slot
  /-- The closest parsing mode that was declared. -/
  parsing : ParsingMode
deriving Repr, Inhabited

namespace CommandSpec

def noInheritance : Inheritance := ⟨[], .empty, .default⟩

/-- The flags of entries, in the order of their identifiers; none may have the name of a sibling. -/
def flagSet (capabilities : Capabilities) (siblings : Option FlagSet)
    (entries : OrderedMap FlagEntry) : Except SpecFault FlagSet :=
  entries.entries.foldlM (fun set (identifier, entry) => do
    let flag ← entry.flag identifier
    if (siblings.bind (·.lookup flag.name)).isSome then throw (.binding (.redefined flag.name))
    set.add flag) (FlagSet.empty capabilities)

/-- The mode declared for a command or above it. -/
def declaredMode (spec : CommandSpec) (inherited : ParsingMode) : ParsingMode :=
  if spec.parsing = .default then inherited else spec.parsing

/-- The mode that follows from what completes the positions: arguments are taken as they are from
the first macro on that asks for it. -/
def inferredMode (registry : Registry) (completion : CompletionSpec) : ParsingMode :=
  match completion.positional.findIdx? (Expression.takesRaw registry) with
  | some 0 => .disabled
  | some _ => .nonInterspersed
  | none =>
    if Expression.takesRaw registry completion.positionalAny then
      if completion.positional.isEmpty then .disabled else .nonInterspersed
    else .default

/-- The mode of a command: a command that runs without flags takes all arguments as they are. -/
def settledMode (registry : Registry) (spec : CommandSpec) (declared : ParsingMode) : ParsingMode :=
  if spec.run.isSome ∧ spec.flags.isEmpty ∧ spec.persistentFlags.isEmpty then .disabled
  else if declared ≠ .default then declared
  else inferredMode registry spec.completion

private def slot? (elements : List String) : Option Slot :=
  if elements.isEmpty then none else some (.expressions elements)

/-- A command without its subcommands. -/
def node (registry : Registry) (capabilities : Capabilities) (inherited : Inheritance)
    (spec : CommandSpec) : Except SpecFault Command := do
  let flags ← flagSet capabilities none spec.flags
  let persistentFlags ← flagSet capabilities (some flags) spec.persistentFlags
  let command : Command := {
    name := spec.name
    aliases := spec.aliases
    description := spec.description
    group := spec.group
    hidden := spec.hidden
    parsing := settledMode registry spec (spec.declaredMode inherited.parsing)
    flags
    persistentFlags
    inheritedFlags := inherited.flags
    exclusiveFlags := spec.exclusiveFlags
    run := spec.run
    flagCompletion := spec.completion.flag.entries.foldl
      (fun map (name, elements) => map.insert name (.expressions elements)) inherited.completion
    positional := spec.completion.positional.map .expressions
    positionalAny := slot? spec.completion.positionalAny
    dash := spec.completion.dash.map .expressions
    dashAny := slot? spec.completion.dashAny
    groups := []
    commands := []
    buildError := none }
  match command.exclusiveFlags.flatten.find? fun name => (command.lookupFlag name).isNone with
  | some unknown => throw (.flag unknown .unknownMember)
  | none => return command

/-- What a command hands on: its persistent flags with what completes their values. -/
def bequest (inherited : Inheritance) (declared : ParsingMode) (command : Command) : Inheritance :=
  { flags := inherited.flags ++ command.persistentFlags.flags
    completion := command.persistentFlags.flags.foldl
      (fun map flag =>
        match command.flagCompletion.get? flag.name with
        | some slot => map.insert flag.name slot
        | none => map)
      inherited.completion
    parsing := declared }

private def addGroup (groups : List String) (spec : CommandSpec) : List String :=
  if spec.group = "" ∨ spec.group ∈ groups then groups else groups ++ [spec.group]

mutual

/-- Assemble a command and its subcommands. -/
def assemble (registry : Registry) (capabilities : Capabilities) (inherited : Inheritance) :
    CommandSpec → ExceptT SpecFault Traced Command
  | ⟨name, aliases, description, group, hidden, parsing, flags, persistentFlags, exclusiveFlags, run,
      completion, commands⟩ => do
    let spec : CommandSpec := ⟨name, aliases, description, group, hidden, parsing, flags,
      persistentFlags, exclusiveFlags, run, completion, commands⟩
    let command ← ExceptT.mk (pure (node registry capabilities inherited spec))
    ExceptT.lift (Traced.note .debug "BUILD" "command"
      [("name", .string name), ("parsing", .string command.parsing.name)])
    let handedOn := bequest inherited (spec.declaredMode inherited.parsing) command
    let commands' ← assembleAll registry capabilities handedOn commands
    return { command with groups := commands.foldl addGroup [], commands := commands' }

def assembleAll (registry : Registry) (capabilities : Capabilities) (inherited : Inheritance) :
    List CommandSpec → ExceptT SpecFault Traced (List Command)
  | [] => return []
  | spec :: rest => do
    let command ← assemble registry capabilities inherited spec
    return command :: (← assembleAll registry capabilities inherited rest)

end

/-- Assemble a command tree. -/
def build (registry : Registry) (capabilities : Capabilities) (spec : CommandSpec) :
    Traced (Except SpecFault Command) :=
  (assemble registry capabilities noInheritance spec).run

/-- A command that shows a fault wherever it is completed. -/
def broken (name error : String) : Command :=
  { name, aliases := [], description := "", group := "", hidden := false, parsing := .disabled
    flags := .empty .extended, persistentFlags := .empty .extended, inheritedFlags := []
    exclusiveFlags := [], run := none, flagCompletion := .empty, positional := []
    positionalAny := some (.notice error), dash := [], dashAny := none, groups := []
    commands := [], buildError := some error }

/-- Assemble a command tree, or a command that shows the fault. -/
def buildOrBroken (registry : Registry) (capabilities : Capabilities) (spec : CommandSpec) :
    Traced Command := do
  match ← spec.build registry capabilities with
  | .ok command => return command
  | .error fault =>
    Traced.report .warn "BUILD" "failed" fault.message (some [("command", .string spec.name)])
    return broken spec.name fault.message

end CommandSpec
end TabSpec
