/-! Floating-point numbers of 64 bits: the nearest one to a decimal fraction, and the shortest decimal
fraction that reads back. Both work on exact integers. -/
namespace TabSpec

/-- A floating-point number, as its 64 bits. -/
structure Binary64 where
  bits : UInt64
deriving Repr, DecidableEq, Inhabited

namespace Binary64

def infinityBits : Nat := 0x7ff0000000000000

def signBit : Nat := 0x8000000000000000

/-- The leading bit of a mantissa, which is not stored. -/
def implicitBit : Nat := 0x10000000000000

def ofMagnitude (negative : Bool) (magnitude : Nat) : Binary64 :=
  ⟨UInt64.ofNat (if negative then signBit + magnitude else magnitude)⟩

def infinity (negative : Bool) : Binary64 := ofMagnitude negative infinityBits

def notANumber : Binary64 := ⟨0x7ff8000000000000⟩

def isNegative (x : Binary64) : Bool := decide (signBit ≤ x.bits.toNat)

/-- The bits without the sign. -/
def magnitude (x : Binary64) : Nat := x.bits.toNat % signBit

def isFinite (x : Binary64) : Bool := decide (x.magnitude < infinityBits)

def isNaN (x : Binary64) : Bool := decide (infinityBits < x.magnitude)

/-- `numerator / denominator` to the nearest integer, a half to the even one. -/
def roundQuotient (numerator denominator : Nat) : Nat :=
  let quotient := numerator / denominator
  let twice := 2 * (numerator % denominator)
  if denominator < twice ∨ (twice = denominator ∧ quotient % 2 = 1) then quotient + 1 else quotient

/-- `numerator / denominator / 2 ^ exponent`, as a fraction. -/
def scaled (numerator denominator : Nat) (exponent : Int) : Nat × Nat :=
  if 0 ≤ exponent then (numerator, denominator * Nat.pow 2 exponent.toNat)
  else (numerator * Nat.pow 2 (-exponent).toNat, denominator)

/-- The bits of the number nearest to a positive fraction. -/
def magnitudeOfFraction (numerator denominator : Nat) : Nat :=
  let guess : Int := (numerator.log2 : Int) - denominator.log2 - 52
  let (n, d) := scaled numerator denominator guess
  let exact : Int := if decide (n / d < implicitBit) then guess - 1 else guess
  let exponent := max exact (-1074)
  let (n, d) := scaled numerator denominator exponent
  let mantissa := roundQuotient n d
  -- a mantissa that rounds up to the next power of two carries into the exponent field
  let field := (exponent + 1074).toNat
  min infinityBits (if mantissa < implicitBit then mantissa else field * implicitBit + mantissa)

/-- The number nearest to `digits * 10 ^ exponent`; the bounds keep the fraction small where the
answer is zero or infinite anyway. -/
def ofDecimal (negative : Bool) (digits : Nat) (exponent : Int) : Binary64 :=
  let scale : Int := exponent + (Nat.toDigits 10 digits).length
  if digits = 0 ∨ scale < -400 then ofMagnitude negative 0
  else if 400 < scale then infinity negative
  else if 0 ≤ exponent then
    ofMagnitude negative (magnitudeOfFraction (digits * Nat.pow 10 exponent.toNat) 1)
  else ofMagnitude negative (magnitudeOfFraction digits (Nat.pow 10 (-exponent).toNat))

/-- Mantissa and binary exponent of a finite number. -/
def decode (x : Binary64) : Nat × Int :=
  let field : Nat := x.magnitude / implicitBit
  let fraction : Nat := x.magnitude % implicitBit
  if field = 0 then (fraction, -1074) else (implicitBit + fraction, (field : Int) - 1075)

/-- The decimal place of the leading digit of a positive fraction. -/
def leadingPlace (numerator denominator : Nat) : Int :=
  let place : Int := (Nat.toDigits 10 numerator).length - (Nat.toDigits 10 denominator).length
  let (n, d) := if 0 ≤ place then (numerator, denominator * Nat.pow 10 place.toNat)
    else (numerator * Nat.pow 10 (-place).toNat, denominator)
  if d ≤ n then place else place - 1

/-- Of the two neighbours of a positive number on the grid of one decimal place, the one that reads
back, or the nearer one if both do. -/
def onGrid (x : Binary64) (numerator denominator : Nat) (place : Int) : Option (Nat × Int) :=
  let (n, d) := if 0 ≤ place then (numerator, denominator * Nat.pow 10 place.toNat)
    else (numerator * Nat.pow 10 (-place).toNat, denominator)
  let below := n / d
  let readsBack (digits : Nat) : Bool := (ofDecimal false digits place).magnitude == x.magnitude
  match readsBack below, readsBack (below + 1) with
  | true, true => some (roundQuotient n d, place)
  | true, false => some (below, place)
  | false, true => some (below + 1, place)
  | false, false => none

/-- Digits and decimal exponent of the shortest decimal fraction that reads back as a finite number
without its sign, the nearest one among those. Seventeen digits are always enough. -/
def shortest (x : Binary64) : Nat × Int :=
  let (mantissa, exponent) := x.decode
  if mantissa = 0 then (0, 0)
  else
    let (n, d) := scaled mantissa 1 (-exponent)
    let lead := leadingPlace n d
    let found := (List.range 17).findSome? fun (further : Nat) => x.onGrid n d (lead - further)
    match found with
    | some (digits, place) =>
      -- rounding up may have carried into a further digit, which is then followed by zeros only
      if digits % 10 = 0 ∧ digits ≠ 0 then (1, place + ((Nat.toDigits 10 digits).length - 1 : Nat))
      else (digits, place)
    | none => (mantissa, 0)

/-- The text of decimal digits that end at a decimal place: positional from `1e-5` below `1e16`, always
with a point or an exponent. -/
def layout (value : Nat) (exponent : Int) : List Char :=
  let digits := Nat.toDigits 10 value
  let length : Int := digits.length
  let point := length + exponent
  if value = 0 then "0.0".toList
  else if 0 ≤ exponent ∧ point ≤ 16 then
    digits ++ List.replicate exponent.toNat '0' ++ ['.', '0']
  else if 0 < point ∧ point ≤ 16 then
    digits.take point.toNat ++ '.' :: digits.drop point.toNat
  else if -5 < point ∧ point ≤ 0 then
    ['0', '.'] ++ List.replicate (-point).toNat '0' ++ digits
  else
    let mantissa := if digits.length = 1 then digits else digits.take 1 ++ '.' :: digits.drop 1
    mantissa ++ 'e' :: (toString (point - 1)).toList

/-- The shortest text of a number. -/
def render (x : Binary64) : String :=
  let sign := if x.isNegative then "-" else ""
  if x.isNaN then ".nan"
  else if !x.isFinite then sign ++ ".inf"
  else
    let (value, exponent) := x.shortest
    sign ++ String.ofList (layout value exponent)

/-- The digits of a decimal fraction as one number, and how many of them stand behind the point. -/
def readMantissa (text : List Char) : Option (Nat × Nat × List Char) :=
  let whole := text.takeWhile Char.isDigit
  let rest := text.drop whole.length
  let (fraction, rest) :=
    match rest with
    | '.' :: rest => (rest.takeWhile Char.isDigit, rest.dropWhile Char.isDigit)
    | _ => ([], rest)
  if whole.isEmpty && fraction.isEmpty then none
  else
    let value := (whole ++ fraction).foldl (fun value c => value * 10 + (c.toNat - 48)) 0
    some (value, fraction.length, rest)

/-- Read an exponent; far beyond all numbers it is cut. -/
def readExponent (text : List Char) : Option Int :=
  let (negative, digits) :=
    match text with
    | '-' :: digits => (true, digits)
    | '+' :: digits => (false, digits)
    | digits => (false, digits)
  if digits.isEmpty || !digits.all Char.isDigit then none
  else
    let value : Nat := digits.foldl (fun value c => min (value * 10 + (c.toNat - 48)) 1000000) 0
    some (if negative then -value else value)

/-- Read a decimal fraction with an optional sign, point and exponent. -/
def ofText? (text : List Char) : Option Binary64 :=
  let (negative, body) :=
    match text with
    | '-' :: body => (true, body)
    | '+' :: body => (false, body)
    | body => (false, body)
  match readMantissa body with
  | none => none
  | some (digits, places, rest) =>
    match rest with
    | [] => some (ofDecimal negative digits (-(places : Int)))
    | c :: exponent =>
      if c = 'e' ∨ c = 'E' then
        (readExponent exponent).map fun power => ofDecimal negative digits (power - places)
      else none

end Binary64
end TabSpec
