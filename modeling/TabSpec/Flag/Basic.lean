/-! Flags of a command, and how they are written on a command line. -/
namespace TabSpec

structure Flag where
  shorthand : String
  longhand : String
  description : String
  /-- Whether the longhand is written with one dash. -/
  nameAsShorthand : Bool
  repeatable : Bool
  optionalArg : Bool
  takesValue : Bool
  hidden : Bool
  required : Bool
  /-- How many arguments the flag takes; 0 is the default of one, a negative number any. -/
  nargs : Int
deriving Repr, DecidableEq, Inhabited

namespace Flag

/-- The longhand, or else the shorthand. -/
def name (flag : Flag) : String :=
  if flag.longhand = "" then flag.shorthand else flag.longhand

/-- The longhand with its dashes. -/
def longForm? (flag : Flag) : Option String :=
  if flag.longhand = "" then none
  else some ((if flag.nameAsShorthand then "-" else "--") ++ flag.longhand)

/-- The shorthand with its dash. -/
def shortForm? (flag : Flag) : Option String :=
  if flag.shorthand = "" then none else some ("-" ++ flag.shorthand)

/-- Whether a token without a value names this flag. -/
def answersTo (flag : Flag) (token : String) : Bool :=
  flag.longForm? == some token || flag.shortForm? == some token

end Flag
end TabSpec
