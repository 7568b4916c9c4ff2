import TabSpec.Json.Basic
import TabSpec.Text.Integer

/-! Reading JSON. A reader returns the value with the rest of the text, or how many characters were
left where the text stops being JSON. -/
namespace TabSpec.Json

/-- How many characters of the text were not read when the fault was found. -/
structure Fault where
  unread : Nat
deriving Repr, DecidableEq

private def fault {Value : Type} (rest : List Char) : Except Fault Value := .error ⟨rest.length⟩

def isSpace (c : Char) : Bool := c == ' ' || c == '\n' || c == '\t' || c == '\r'

def skipSpace (text : List Char) : List Char := text.dropWhile isSpace

/-- The number written as four hexadecimal digits. -/
def hex4? (a b c d : Char) : Option Nat := do
  let a ← Text.digitValue? 16 a
  let b ← Text.digitValue? 16 b
  let c ← Text.digitValue? 16 c
  let d ← Text.digitValue? 16 d
  return ((a * 16 + b) * 16 + c) * 16 + d

/-- The character that a letter behind a backslash stands for. -/
def escaped? (c : Char) : Option Char :=
  match c with
  | '"' => some '"'
  | '\\' => some '\\'
  | '/' => some '/'
  | 'b' => some '\x08'
  | 'f' => some '\x0c'
  | 'n' => some '\n'
  | 'r' => some '\r'
  | 't' => some '\t'
  | _ => none

private def put (c : Char) : Option (List Char) × List Char → Option (List Char) × List Char
  | (value, rest) => (value.map (c :: ·), rest)

/-- Read a string behind its opening quote; `none` stands for half of a surrogate pair. -/
def readString : List Char → Except Fault (Option (List Char) × List Char)
  | [] => fault []
  | '"' :: rest => .ok (some [], rest)
  | '\\' :: 'u' :: a :: b :: c :: d :: '\\' :: 'u' :: e :: f :: g :: h :: rest =>
    match hex4? a b c d, hex4? e f g h with
    | some high, some low =>
      if 0xd800 ≤ high ∧ high < 0xdc00 ∧ 0xdc00 ≤ low ∧ low < 0xe000 then
        let value := 0x10000 + (high - 0xd800) * 0x400 + (low - 0xdc00)
        (readString rest).map (put (Char.ofNat value))
      else if 0xd800 ≤ high ∧ high < 0xe000 then
        (readString ('\\' :: 'u' :: e :: f :: g :: h :: rest)).map fun (_, rest) => (none, rest)
      else (readString ('\\' :: 'u' :: e :: f :: g :: h :: rest)).map (put (Char.ofNat high))
    | _, _ => fault (a :: b :: c :: d :: '\\' :: 'u' :: e :: f :: g :: h :: rest)
  | '\\' :: 'u' :: a :: b :: c :: d :: rest =>
    match hex4? a b c d with
    | some n =>
      if 0xd800 ≤ n ∧ n < 0xe000 then (readString rest).map fun (_, rest) => (none, rest)
      else (readString rest).map (put (Char.ofNat n))
    | none => fault (a :: b :: c :: d :: rest)
  | '\\' :: c :: rest =>
    match escaped? c with
    | some c => (readString rest).map (put c)
    | none => fault (c :: rest)
  | '\\' :: [] => fault []
  | c :: rest => if c.toNat < 0x20 then fault (c :: rest) else (readString rest).map (put c)
termination_by text => text.length

/-- Read the digits of a number, of which there must be one. -/
private def readDigits (text : List Char) : Except Fault (List Char × List Char) :=
  match text.takeWhile Char.isDigit with
  | [] => fault text
  | digits => .ok (digits, text.dropWhile Char.isDigit)

private def readFraction (text : List Char) : Except Fault (List Char × List Char) :=
  match text with
  | '.' :: rest => (readDigits rest).map fun (digits, rest) => ('.' :: digits, rest)
  | _ => .ok ([], text)

private def readExponent (text : List Char) : Except Fault (List Char × List Char) :=
  match text with
  | c :: rest =>
    if c = 'e' ∨ c = 'E' then
      match rest with
      | '+' :: rest => (readDigits rest).map fun (digits, rest) => (c :: '+' :: digits, rest)
      | '-' :: rest => (readDigits rest).map fun (digits, rest) => (c :: '-' :: digits, rest)
      | _ => (readDigits rest).map fun (digits, rest) => (c :: digits, rest)
    else .ok ([], text)
  | [] => .ok ([], text)

private def readWhole (text : List Char) : Except Fault (List Char × List Char) :=
  match text with
  | '0' :: c :: rest => if c.isDigit then fault (c :: rest) else .ok (['0'], c :: rest)
  | _ => readDigits text

/-- Read a number as its text. -/
def readNumber (text : List Char) : Except Fault (String × List Char) := do
  let (sign, rest) := match text with
    | '-' :: rest => (['-'], rest)
    | _ => ([], text)
  let (whole, rest) ← readWhole rest
  let (fraction, rest) ← readFraction rest
  let (exponent, rest) ← readExponent rest
  return (String.ofList (sign ++ whole ++ fraction ++ exponent), rest)

/-- Read a word such as `null` behind its first letter. -/
private def readWord (value : Json) : (word text : List Char) → Except Fault (Json × List Char)
  | [], text => .ok (value, text)
  | c :: word, d :: text => if c = d then readWord value word text else fault (d :: text)
  | _ :: _, [] => fault []

mutual

/-- Read one value; `fuel` bounds the steps and a text's own length is always enough. -/
def readValue : (fuel : Nat) → List Char → Except Fault (Json × List Char)
  | 0, text => fault text
  | fuel + 1, text =>
    match skipSpace text with
    | [] => fault []
    | 'n' :: rest => readWord .null ['u', 'l', 'l'] rest
    | 't' :: rest => readWord (.bool true) ['r', 'u', 'e'] rest
    | 'f' :: rest => readWord (.bool false) ['a', 'l', 's', 'e'] rest
    | '"' :: rest => do
      let (value, rest) ← readString rest
      match value with
      | some value => return (.string (String.ofList value), rest)
      | none => return (.unpaired, rest)
    | '[' :: rest =>
      match skipSpace rest with
      | ']' :: rest => .ok (.array [], rest)
      | rest => do
        let (items, rest) ← readItems fuel rest
        return (.array items, rest)
    | '\x7b' :: rest =>
      match skipSpace rest with
      | '\x7d' :: rest => .ok (.object [], rest)
      | rest => do
        let (fields, rest) ← readFields fuel rest
        return (.object fields, rest)
    | text => do
      let (digits, rest) ← readNumber text
      return (.number digits, rest)

/-- Read the items of an array up to its closing bracket. -/
def readItems : (fuel : Nat) → List Char → Except Fault (List Json × List Char)
  | 0, text => fault text
  | fuel + 1, text => do
    let (item, rest) ← readValue fuel text
    match skipSpace rest with
    | ']' :: rest => return ([item], rest)
    | ',' :: rest => do
      let (items, rest) ← readItems fuel rest
      return (item :: items, rest)
    | rest => fault rest

/-- Read the fields of an object up to its closing brace. -/
def readFields : (fuel : Nat) → List Char → Except Fault (List (String × Json) × List Char)
  | 0, text => fault text
  | fuel + 1, text =>
    match skipSpace text with
    | '"' :: rest => do
      let (name?, rest) ← readString rest
      let some name := name? | fault rest
      match skipSpace rest with
      | ':' :: rest => do
        let (value, rest) ← readValue fuel rest
        match skipSpace rest with
        | '\x7d' :: rest => return ([(String.ofList name, value)], rest)
        | ',' :: rest => do
          let (fields, rest) ← readFields fuel rest
          return ((String.ofList name, value) :: fields, rest)
        | rest => fault rest
      | rest => fault rest
    | rest => fault rest

end

/-- Line and column, counted from one, where a fault leaves its text. -/
def Fault.position (fault : Fault) (text : List Char) : Nat × Nat :=
  let front := text.take (text.length - fault.unread)
  let line := front.count '\n' + 1
  let column := (front.reverse.takeWhile (· != '\n')).length
  (line, column)

/-- Read a whole text as one value. -/
def ofText (text : String) : Except Fault Json := do
  let chars := text.toList
  let (json, rest) ← readValue (chars.length + 1) chars
  match skipSpace rest with
  | [] => return json
  | rest => fault rest

end TabSpec.Json
