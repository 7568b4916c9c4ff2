import TabSpec.Binary64
import TabSpec.Text.Cut
import TabSpec.Text.Integer
import TabSpec.Yaml.Node

/-! What a scalar means: the notations of null, booleans, integers and floating-point numbers. -/
namespace TabSpec.Yaml

def isNullText (text : String) : Bool := ["null", "Null", "NULL", "~"].contains text

def boolOf? (text : String) : Option Bool :=
  if ["true", "True", "TRUE"].contains text then some true
  else if ["false", "False", "FALSE"].contains text then some false
  else none

/-- Whether a text is a leading zero with further digits, which is no number. -/
def isZeroPadded (text : List Char) : Bool :=
  let digits := match text with
    | '-' :: rest => rest
    | '+' :: rest => rest
    | _ => text
  match digits with
  | '0' :: d :: rest => (d :: rest).all Char.isDigit
  | _ => false

def signs (c : Char) : Bool := c == '+' || c == '-'

/-- Read the digits of another base, which have no sign of their own. -/
def readRadix (range : Text.IntegerRange) (base : Nat) (negative : Bool)
    (digits : List Char) : Option Int :=
  if digits.head?.any signs then none
  else (Text.readInteger range base (if negative then '-' :: digits else digits)).toOption

/-- The base that a text names, and the digits behind it. -/
def radix? : List Char → Option (Nat × List Char)
  | '0' :: 'x' :: digits => some (16, digits)
  | '0' :: 'o' :: digits => some (8, digits)
  | '0' :: 'b' :: digits => some (2, digits)
  | _ => none

/-- Read an integer that may be negative. -/
def signedOf? (range : Text.IntegerRange) (text : List Char) : Option Int :=
  let (plus, unsigned) := match text with
    | '+' :: rest => (true, rest)
    | _ => (false, text)
  if plus && unsigned.head?.any signs then none
  else
    let (negative, body) := match text with
      | '-' :: rest => (true, rest)
      | _ => (false, unsigned)
    let named := match radix? body with
      | some (base, digits) =>
        if negative then (Text.readInteger range base ('-' :: digits)).toOption
        else readRadix range base false digits
      | none => none
    match named with
    | some value => some value
    | none =>
      if isZeroPadded text then none else (Text.readInteger range 10 unsigned).toOption

/-- Read an integer without a minus sign. -/
def unsignedOf? (range : Text.IntegerRange) (text : List Char) : Option Int :=
  let unsigned := match text with
    | '+' :: rest => rest
    | _ => text
  let named := match radix? unsigned with
    | some (base, digits) => readRadix range base false digits
    | none => none
  match named with
  | some value => some value
  | none =>
    if unsigned.head?.any signs || isZeroPadded text then none
    else (Text.readInteger range 10 unsigned).toOption

/-- Read an integer with a minus sign, or a decimal one. -/
def negativeOf? (range : Text.IntegerRange) (text : List Char) : Option Int :=
  let named := match text with
    | '-' :: rest =>
      match radix? rest with
      | some (base, digits) => (Text.readInteger range base ('-' :: digits)).toOption
      | none => none
    | _ => none
  match named with
  | some value => some value
  | none => if isZeroPadded text then none else (Text.readInteger range 10 text).toOption

/-- Read a floating-point number. -/
def floatOf? (text : String) : Option Binary64 :=
  let chars := text.toList
  let (plus, unsigned) := match chars with
    | '+' :: rest => (true, rest)
    | _ => (false, chars)
  if plus && unsigned.head?.any signs then none
  else if [".inf", ".Inf", ".INF"].contains (String.ofList unsigned) then
    some (Binary64.infinity false)
  else if ["-.inf", "-.Inf", "-.INF"].contains text then some (Binary64.infinity true)
  else if [".nan", ".NaN", ".NAN"].contains text then some Binary64.notANumber
  else (Binary64.ofText? unsigned).filter Binary64.isFinite

/-- The value of a scalar. -/
inductive ScalarValue
  | null
  | bool (value : Bool)
  | integer (value : Int)
  | float (value : Binary64)
  | string (value : String)
deriving Repr, DecidableEq

/-- The integer that a text writes, if it writes one; the answer's inner `none` stands for one that
is too large for a value. -/
def integerOf? (text : List Char) : Option (Option Int) :=
  match unsignedOf? (.unsigned 64) text with
  | some value => some (some value)
  | none =>
    match negativeOf? (.signed 64) text with
    | some value => some (some value)
    | none =>
      match unsignedOf? (.unsigned 128) text with
      | some _ => some none
      | none => (negativeOf? (.signed 128) text).map fun _ => none

/-- The value of a plain scalar without a tag. -/
def plainValue? (text : String) : Option ScalarValue :=
  if text.isEmpty || isNullText text then some .null
  else
    match boolOf? text with
    | some value => some (.bool value)
    | none =>
      match integerOf? text.toList with
      | some value => value.map .integer
      | none =>
        match if isZeroPadded text.toList then none else floatOf? text with
        | some value => some (.float value)
        | none => some (.string text)

/-- The part of a tag behind its exclamation mark, if the tag is one of the document's own. -/
def localTag? (tag : Option String) : Option String := tag.bind (Text.stripFront? "!")

/-- The value of a scalar whose tag is not one of the document's own. -/
def scalarValue? (tag : Option String) (text : String) (style : ScalarStyle) :
    Option ScalarValue :=
  match tag with
  | some "tag:yaml.org,2002:bool" => (boolOf? text).map .bool
  | some "tag:yaml.org,2002:int" => (integerOf? text.toList).join.map .integer
  | some "tag:yaml.org,2002:float" => (floatOf? text).map .float
  | some "tag:yaml.org,2002:null" => if isNullText text then some .null else none
  | some _ => some (.string text)
  | none => if style = .plain then plainValue? text else some (.string text)

end TabSpec.Yaml
