/-! Arithmetic of a shell, on integers of 64 bits that wrap around. -/
namespace TabSpec.Script.Arithmetic

inductive Fault
  | expression
  | leftover
  | number (text : List Char)
  | divisionByZero
deriving Repr, DecidableEq

inductive Operator
  | or | and | bitOr | bitXor | bitAnd | equal | unequal | less | lessEqual | greater
  | greaterEqual | shiftLeft | shiftRight | plus | minus | times | divide | remainder
deriving Repr, DecidableEq

/-- How tightly an operator binds. -/
def Operator.level : Operator → Nat
  | .or => 1
  | .and => 2
  | .bitOr => 3
  | .bitXor => 4
  | .bitAnd => 5
  | .equal | .unequal => 6
  | .less | .lessEqual | .greater | .greaterEqual => 7
  | .shiftLeft | .shiftRight => 8
  | .plus | .minus => 9
  | .times | .divide | .remainder => 10

def Operator.read? : List Char → Option (Operator × List Char)
  | '|' :: '|' :: rest => some (.or, rest)
  | '&' :: '&' :: rest => some (.and, rest)
  | '=' :: '=' :: rest => some (.equal, rest)
  | '!' :: '=' :: rest => some (.unequal, rest)
  | '<' :: '<' :: rest => some (.shiftLeft, rest)
  | '>' :: '>' :: rest => some (.shiftRight, rest)
  | '<' :: '=' :: rest => some (.lessEqual, rest)
  | '>' :: '=' :: rest => some (.greaterEqual, rest)
  | '<' :: rest => some (.less, rest)
  | '>' :: rest => some (.greater, rest)
  | '|' :: rest => some (.bitOr, rest)
  | '^' :: rest => some (.bitXor, rest)
  | '&' :: rest => some (.bitAnd, rest)
  | '+' :: rest => some (.plus, rest)
  | '-' :: rest => some (.minus, rest)
  | '*' :: rest => some (.times, rest)
  | '/' :: rest => some (.divide, rest)
  | '%' :: rest => some (.remainder, rest)
  | _ => none

private def truth (condition : Bool) : Int64 := if condition then 1 else 0

def Operator.apply (x y : Int64) : Operator → Except Fault Int64
  | .or => .ok (truth (x != 0 || y != 0))
  | .and => .ok (truth (x != 0 && y != 0))
  | .bitOr => .ok (x ||| y)
  | .bitXor => .ok (x ^^^ y)
  | .bitAnd => .ok (x &&& y)
  | .equal => .ok (truth (x == y))
  | .unequal => .ok (truth (x != y))
  | .less => .ok (truth (x < y))
  | .lessEqual => .ok (truth (x ≤ y))
  | .greater => .ok (truth (y < x))
  | .greaterEqual => .ok (truth (y ≤ x))
  | .shiftLeft => .ok (x <<< y)
  | .shiftRight => .ok (x >>> y)
  | .plus => .ok (x + y)
  | .minus => .ok (x - y)
  | .times => .ok (x * y)
  | .divide => if y = 0 then .error .divisionByZero else .ok (x / y)
  | .remainder => if y = 0 then .error .divisionByZero else .ok (x % y)

def skip (text : List Char) : List Char :=
  text.dropWhile fun c => c == ' ' || c == '\t' || c == '\n'

/-- Read the digits at the front of a text; a number that is too large becomes the largest one. -/
private def digits (base : Nat) (text : List Char) : Int64 × List Char :=
  let valueOf (c : Char) : Nat := if c.isDigit then c.toNat - 48 else c.toLower.toNat - 87
  let front := text.takeWhile fun c => c.isAlphanum && valueOf c < base
  let value := front.foldl (fun value c => value * base + valueOf c) 0
  (Int64.ofNat (min value 0x7fffffffffffffff), text.drop front.length)

/-- Read a constant: decimal, octal behind `0`, hexadecimal behind `0x`. -/
def constant : List Char → Int64 × List Char
  | '0' :: 'x' :: text => digits 16 text
  | '0' :: 'X' :: text => digits 16 text
  | '0' :: text => digits 8 text
  | text => digits 10 text

variable (lookup : List Char → List Char)

private def isNameChar (c : Char) : Bool := c.isAlphanum || c == '_'

/-- The value of a variable, which must be a constant. -/
private def valueOf (name : List Char) : Except Fault Int64 :=
  let text := lookup name
  let (negative, number) := match skip text with
    | '-' :: rest => (true, rest)
    | rest => (false, rest)
  let (value, rest) := constant number
  if (skip text).isEmpty then .ok 0
  else if !(skip rest).isEmpty || !(number.head?.any Char.isDigit) then .error (.number text)
  else .ok (if negative then -value else value)

mutual

/-- Read and compute an expression whose operators bind at least as tightly as `level`. -/
def binary (level : Nat) : (fuel : Nat) → List Char → Except Fault (Int64 × List Char)
  | 0, _ => .error .expression
  | fuel + 1, text => do
    let (value, rest) ← unary fuel text
    further level value fuel rest

def further (level : Nat) (value : Int64) :
    (fuel : Nat) → List Char → Except Fault (Int64 × List Char)
  | 0, _ => .error .expression
  | fuel + 1, text =>
    match Operator.read? (skip text) with
    | some (operator, rest) =>
      if level ≤ operator.level then do
        let (second, rest) ← binary (operator.level + 1) fuel rest
        let value ← operator.apply value second
        further level value fuel rest
      else .ok (value, text)
    | none => .ok (value, text)

def unary : (fuel : Nat) → List Char → Except Fault (Int64 × List Char)
  | 0, _ => .error .expression
  | fuel + 1, text =>
    match skip text with
    | '-' :: rest => (unary fuel rest).map fun (value, rest) => (-value, rest)
    | '+' :: rest => unary fuel rest
    | '!' :: rest => (unary fuel rest).map fun (value, rest) => (truth (value == 0), rest)
    | '~' :: rest => (unary fuel rest).map fun (value, rest) => (~~~value, rest)
    | '(' :: rest => do
      let (value, rest) ← choice fuel rest
      match skip rest with
      | ')' :: rest => return (value, rest)
      | _ => throw .expression
    | c :: rest =>
      let name := (c :: rest).takeWhile isNameChar
      let after := (c :: rest).drop name.length
      if name.isEmpty then .error .expression
      else if c.isDigit then .ok (constant (c :: rest))
      else (valueOf lookup name).map (·, after)
    | [] => .error .expression

/-- Read and compute an expression with a choice. -/
def choice : (fuel : Nat) → List Char → Except Fault (Int64 × List Char)
  | 0, _ => .error .expression
  | fuel + 1, text => do
    let (condition, rest) ← binary 1 fuel text
    match skip rest with
    | '?' :: rest =>
      let (first, rest) ← choice fuel rest
      match skip rest with
      | ':' :: rest =>
        let (second, rest) ← choice fuel rest
        return (if condition != 0 then first else second, rest)
      | _ => throw .expression
    | _ => return (condition, rest)

end

/-- An assignment at the front of an expression: its name, its operator, and the rest. -/
def assignment? (text : List Char) : Option (List Char × Option Operator × List Char) :=
  let text := skip text
  let name := text.takeWhile isNameChar
  if name.isEmpty || name.head?.any Char.isDigit then none
  else
    match skip (text.drop name.length) with
    | '=' :: '=' :: _ => none
    | '=' :: rest => some (name, none, rest)
    | rest =>
      match Operator.read? rest with
      | some (operator, '=' :: rest) =>
        if operator.level = 6 || operator.level = 7 || operator.level < 3 then none
        else some (name, some operator, rest)
      | _ => none

/-- Compute a whole expression; an assignment at its front is given back beside the value. -/
def evaluate (text : List Char) : Except Fault (Int64 × Option (List Char)) := do
  let whole (text : List Char) : Except Fault Int64 := do
    let (value, rest) ← choice lookup (10 * text.length + 100) text
    if (skip rest).isEmpty then return value else throw .leftover
  if (skip text).isEmpty then return (0, none)
  match assignment? text with
  | some (name, none, rest) => return (← whole rest, some name)
  | some (name, some operator, rest) =>
    let second ← whole rest
    return (← operator.apply (← valueOf lookup name) second, some name)
  | none => return (← whole text, none)

end TabSpec.Script.Arithmetic
