import TabSpec.Fault
import TabSpec.Flag.Basic

/-! Ordered sets of flags, and the features that a set may lack. -/
namespace TabSpec

/-- What a flag set can express beyond plain longhands with one-letter shorthands. -/
structure Capabilities where
  longShorthand : Bool
  shorthandOnly : Bool
  nargs : Bool
deriving Repr, DecidableEq, Inhabited

def Capabilities.extended : Capabilities := ⟨true, true, true⟩

def Capabilities.posix : Capabilities := ⟨false, false, false⟩

/-- Flags in the order in which they were added. -/
structure FlagSet where
  flags : List Flag
  capabilities : Capabilities
deriving Repr, DecidableEq, Inhabited

namespace FlagSet

def empty (capabilities : Capabilities) : FlagSet := ⟨[], capabilities⟩

/-- The flag of that name. -/
def lookup (set : FlagSet) (name : String) : Option Flag := set.flags.find? (·.name == name)

/-- The flag that a dashed token names. -/
def lookupToken (set : FlagSet) (token : String) : Option Flag :=
  set.flags.find? (·.answersTo token)

/-- Why a flag cannot be added. -/
def objection (set : FlagSet) (flag : Flag) : Option BindingFault :=
  if 1 < flag.shorthand.length ∧ set.capabilities.longShorthand = false then
    some (.longShorthand flag.shorthand)
  else if flag.longhand = "" ∧ set.capabilities.shorthandOnly = false then
    some (.shorthandOnly flag.shorthand)
  else if flag.nargs ≠ 0 ∧ set.capabilities.nargs = false then some (.arity flag.name)
  else if (set.lookup flag.name).isSome then some (.redefined flag.name)
  else none

/-- Add a flag at the end. -/
def add (set : FlagSet) (flag : Flag) : Except SpecFault FlagSet :=
  match set.objection flag with
  | some fault => .error (.binding fault)
  | none => .ok { set with flags := set.flags ++ [flag] }

end FlagSet
end TabSpec
