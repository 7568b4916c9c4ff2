import TabSpec.Flag.Identifier
import TabSpec.Flag.Set
import TabSpec.OrderedMap
import TabSpec.RunField

/-! Specifications of commands, as they are written. -/
namespace TabSpec

/-- How flags are told from other arguments. -/
inductive ParsingMode
  /-- Flags stand anywhere, unless what completes the positions says otherwise. -/
  | default
  | interspersed
  /-- Flags end at the first positional argument. -/
  | nonInterspersed
  /-- Every argument is positional. -/
  | disabled
deriving Repr, DecidableEq, Inhabited

namespace ParsingMode

def name : ParsingMode → String
  | .default => ""
  | .interspersed => "interspersed"
  | .nonInterspersed => "non-interspersed"
  | .disabled => "disabled"

def parse (text : String) : Except SpecFault ParsingMode :=
  match [default, interspersed, nonInterspersed, disabled].find? (·.name == text) with
  | some mode => .ok mode
  | none => .error (.parsingMode text)

end ParsingMode

/-- What is written about one flag: its description, or a record. -/
inductive FlagEntry
  | description (text : String)
  | extended (text : String) (nargs : Int)
deriving Repr, DecidableEq, Inhabited

/-- The flag that an entry describes under an identifier. A number of arguments in the entry
replaces that of the identifier. -/
def FlagEntry.flag (identifier : String) : FlagEntry → Except SpecFault Flag
  | .description text => Flag.parse identifier text
  | .extended text nargs => do
    let flag ← Flag.parse identifier text
    return if nargs = 0 then flag else { flag with nargs }

/-- The expressions for each position of a command line. -/
structure CompletionSpec where
  flag : OrderedMap (List String)
  positional : List (List String)
  positionalAny : List String
  dash : List (List String)
  dashAny : List String
deriving Repr, DecidableEq, Inhabited

def CompletionSpec.empty : CompletionSpec := ⟨.empty, [], [], [], []⟩

structure CommandSpec where
  name : String
  aliases : List String
  description : String
  group : String
  hidden : Bool
  parsing : ParsingMode
  flags : OrderedMap FlagEntry
  persistentFlags : OrderedMap FlagEntry
  /-- Groups of flags of which only one may be set. -/
  exclusiveFlags : List (List String)
  run : Option RunField
  completion : CompletionSpec
  commands : List CommandSpec
deriving Repr, Inhabited

def CommandSpec.empty : CommandSpec :=
  ⟨"", [], "", "", false, .default, .empty, .empty, [], none, .empty, []⟩

end TabSpec
