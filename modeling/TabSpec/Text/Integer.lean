/-! Reading an integer from its digits, within bounds. -/
namespace TabSpec.Text

/-- Why a text is no integer within the bounds. -/
inductive IntegerFault
  | empty
  | invalidDigit
  | tooLarge
  | tooSmall
deriving Repr, DecidableEq

def IntegerFault.message : IntegerFault → String
  | .empty => "cannot parse integer from empty string"
  | .invalidDigit => "invalid digit found in string"
  | .tooLarge => "number too large to fit in target type"
  | .tooSmall => "number too small to fit in target type"

/-- The value of a digit in bases up to 36, in either case. -/
def digitValue? (base : Nat) (c : Char) : Option Nat :=
  let value? :=
    if c.isDigit then some (c.toNat - 48)
    else if c.isLower then some (c.toNat - 87)
    else if c.isUpper then some (c.toNat - 55)
    else none
  value?.filter (· < base)

/-- Integers from `least` to `greatest`. -/
structure IntegerRange where
  least : Int
  greatest : Int
deriving Repr, DecidableEq

def IntegerRange.signed (bits : Nat) : IntegerRange :=
  let half : Int := (Nat.pow 2 (bits - 1) : Nat)
  ⟨-half, half - 1⟩

def IntegerRange.unsigned (bits : Nat) : IntegerRange := ⟨0, (Nat.pow 2 bits : Nat) - 1⟩

def IntegerRange.contains (range : IntegerRange) (value : Int) : Bool :=
  range.least ≤ value && value ≤ range.greatest

/-- Read digits on behind the value so far; the first digit that is invalid or leads out of the
range decides the fault. -/
def readDigits (range : IntegerRange) (base : Nat) (negative : Bool) :
    (value : Int) → List Char → Except IntegerFault Int
  | value, [] => .ok value
  | value, c :: rest =>
    match digitValue? base c with
    | none => .error .invalidDigit
    | some digit =>
      let next := if negative then value * base - digit else value * base + digit
      if range.greatest < next then .error .tooLarge
      else if next < range.least then .error .tooSmall
      else readDigits range base negative next rest

/-- Read an integer with an optional sign; a minus sign needs a range with negative numbers. -/
def readInteger (range : IntegerRange) (base : Nat) (text : List Char) : Except IntegerFault Int :=
  match text with
  | [] => .error .empty
  | ['+'] => .error .invalidDigit
  | ['-'] => .error .invalidDigit
  | '+' :: digits => readDigits range base false 0 digits
  | '-' :: digits =>
    if range.least < 0 then readDigits range base true 0 digits else .error .invalidDigit
  | digits => readDigits range base false 0 digits

/-- Read a decimal integer. -/
def readDecimal? (range : IntegerRange) (text : String) : Option Int :=
  (readInteger range 10 text.toList).toOption

end TabSpec.Text
