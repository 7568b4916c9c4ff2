import TabSpec.Expression
import TabSpec.Spec.Basic

/-! Commands: specifications with their flags read and their parsing modes settled. -/
namespace TabSpec

/-- What completes one position. -/
inductive Slot
  | expressions (elements : List String)
  /-- The position only shows a message. -/
  | notice (message : String)
deriving Repr, DecidableEq, Inhabited

def Slot.action (registry : Registry) (nested : SpecTarget → Action) : Slot → Action
  | .expressions elements => Expression.evaluate registry nested elements
  | .notice message => .ofMessage message

structure Command where
  name : String
  aliases : List String
  description : String
  group : String
  hidden : Bool
  parsing : ParsingMode
  flags : FlagSet
  persistentFlags : FlagSet
  /-- The persistent flags of the commands above. -/
  inheritedFlags : List Flag
  exclusiveFlags : List (List String)
  run : Option RunField
  flagCompletion : OrderedMap Slot
  positional : List Slot
  positionalAny : Option Slot
  dash : List Slot
  dashAny : Option Slot
  /-- The groups of the subcommands, each where it is first used. -/
  groups : List String
  commands : List Command
  /-- The fault of a command that could not be assembled. -/
  buildError : Option String
deriving Repr, Inhabited

namespace Command

/-- Whether a word calls the command. -/
def answersTo (command : Command) (word : String) : Bool :=
  command.name == word || command.aliases.contains word

/-- The subcommand that a word calls. -/
def find? (command : Command) (word : String) : Option Command :=
  command.commands.find? (·.answersTo word)

/-- Every flag of the command, its own ones first. -/
def allFlags (command : Command) : List Flag :=
  command.flags.flags ++ command.persistentFlags.flags ++ command.inheritedFlags

/-- The flag that a dashed token names. -/
def lookupToken (command : Command) (token : String) : Option Flag :=
  command.allFlags.find? (·.answersTo token)

def lookupFlag (command : Command) (name : String) : Option Flag :=
  command.allFlags.find? (·.name == name)

def parsesFlags (command : Command) : Bool := command.parsing != .disabled

end Command
end TabSpec
