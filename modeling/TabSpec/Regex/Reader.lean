import TabSpec.Regex.Basic
import TabSpec.Text.Blank
import TabSpec.Text.Digit
import TabSpec.Text.Upper

/-! Reading regular expressions. The reader works on what is left of the text; its fuel is a little
more than the length of the text. -/
namespace TabSpec.Regex

/-- Settings that a group may change for what follows in it. -/
structure Flags where
  ignoreCase : Bool
  multiLine : Bool
  dotAll : Bool
  verbose : Bool
  /-- Whether a carriage return may end a line, too. -/
  returns : Bool
  /-- Whether sets hold characters of ASCII only. -/
  ascii : Bool
deriving Repr, DecidableEq

namespace Flags

def none : Flags := ⟨false, false, false, false, false, false⟩

/-- A set of characters, with letters in either case if case does not matter. -/
def set (flags : Flags) (accepts : Char → Bool) : Char → Bool :=
  if !flags.ignoreCase then accepts
  else if flags.ascii then fun c => accepts c || accepts c.toLower || accepts c.toUpper
  else fun c => (Text.caseVariants c).any accepts || accepts c

def lineStart (flags : Flags) : Place :=
  if !flags.multiLine then .textStart
  else if flags.returns then .returnedLineStart
  else .lineStart

def lineEnd (flags : Flags) : Place :=
  if !flags.multiLine then .textEnd
  else if flags.returns then .returnedLineEnd
  else .lineEnd

/-- Set or unset the flag of a letter. -/
def change (flags : Flags) (letter : Char) (value : Bool) : Option Flags :=
  match letter with
  | 'i' => some { flags with ignoreCase := value }
  | 'm' => some { flags with multiLine := value }
  | 's' => some { flags with dotAll := value }
  | 'x' => some { flags with verbose := value }
  | 'R' => some { flags with returns := value }
  | 'u' => some { flags with ascii := !value }
  -- which of several matches is preferred makes no difference
  | 'U' => some flags
  | _ => Option.none

end Flags

def isAsciiSpace (c : Char) : Bool := ('\t' ≤ c && c ≤ '\r') || c == ' '

/-- The set that a letter behind a backslash names. Within ASCII, a set that leaves characters out
would match parts of the others. -/
def namedSet? (flags : Flags) (c : Char) : Option (Option (Char → Bool)) :=
  let choose (ascii all : Char → Bool) : Option (Option (Char → Bool)) :=
    some (some (if flags.ascii then ascii else all))
  let without (all : Char → Bool) : Option (Option (Char → Bool)) :=
    some (if flags.ascii then none else some fun c => !all c)
  match c with
  | 'd' => choose Char.isDigit Text.isDecimalDigit
  | 's' => choose isAsciiSpace Text.isBlank
  | 'w' => choose Text.isAsciiWordChar Text.isWordChar
  | 'D' => without Text.isDecimalDigit
  | 'S' => without Text.isBlank
  | 'W' => without Text.isWordChar
  | _ => none

/-- The sets between brackets and colons. -/
def bracketSet? (name : String) : Option (Char → Bool) :=
  match name with
  | "alnum" => some Char.isAlphanum
  | "alpha" => some Char.isAlpha
  | "ascii" => some fun c => c.toNat < 128
  | "blank" => some fun c => c == ' ' || c == '\t'
  | "cntrl" => some fun c => c.toNat < 32 || c.toNat == 127
  | "digit" => some Char.isDigit
  | "graph" => some fun c => '!' ≤ c && c ≤ '~'
  | "lower" => some Char.isLower
  | "print" => some fun c => ' ' ≤ c && c ≤ '~'
  | "punct" => some fun c => '!' ≤ c && c ≤ '~' && !c.isAlphanum
  | "space" => some isAsciiSpace
  | "upper" => some Char.isUpper
  | "word" => some Text.isAsciiWordChar
  | "xdigit" => some fun c => c.isDigit || ('a' ≤ c.toLower && c.toLower ≤ 'f')
  | _ => none

/-- The sets of a property's name. -/
def propertySet? (name : String) : Option (Char → Bool) :=
  match name with
  | "L" => some fun c => Text.isWordChar c && !Text.isDecimalDigit c && c != '_'
  | "Letter" => some fun c => Text.isWordChar c && !Text.isDecimalDigit c && c != '_'
  | "Alphabetic" => some fun c => Text.isWordChar c && !Text.isDecimalDigit c && c != '_'
  | "Lu" => some Char.isUpper
  | "Uppercase" => some Char.isUpper
  | "Ll" => some Char.isLower
  | "Lowercase" => some Char.isLower
  | "N" => some Text.isDecimalDigit
  | "Nd" => some Text.isDecimalDigit
  | "White_Space" => some Text.isBlank
  | _ => none

def hexValue (digits : List Char) : Nat :=
  digits.foldl (fun value c =>
    value * 16 + if c.isDigit then c.toNat - 48 else c.toLower.toNat - 87) 0

def isHexDigit (c : Char) : Bool := c.isDigit || ('a' ≤ c.toLower && c.toLower ≤ 'f')

/-- The text up to a closing brace, and what stands behind it. -/
def braced? : List Char → Option (List Char × List Char)
  | '\x7b' :: rest =>
    match rest.dropWhile (· != '\x7d') with
    | _ :: after => some (rest.takeWhile (· != '\x7d'), after)
    | [] => none
  | _ => none

/-- A character written by its number. -/
def numbered? (count : Nat) (rest : List Char) : Option (Char × List Char) := do
  let (digits, after) ← match rest with
    | '\x7b' :: _ => braced? rest
    | _ => if (rest.take count).length = count then some (rest.take count, rest.drop count) else none
  guard (!digits.isEmpty && digits.all isHexDigit && digits.length ≤ 8)
  guard (hexValue digits).isValidChar
  return (Char.ofNat (hexValue digits), after)

/-- What stands behind a backslash. -/
inductive Escape
  | char (c : Char)
  | set (accepts : Char → Bool)
  | place (asked : Place)

def readEscape (flags : Flags) : List Char → Option (Escape × List Char)
  | [] => none
  | c :: rest =>
    let word (place : Bool → Place) (rest : List Char) : Option (Escape × List Char) :=
      some (.place (place flags.ascii), rest)
    match namedSet? flags c with
    | some accepts? => accepts?.map fun accepts => (.set accepts, rest)
    | none =>
      match c with
      | 'a' => some (.char '\x07', rest)
      | 'f' => some (.char '\x0c', rest)
      | 't' => some (.char '\t', rest)
      | 'n' => some (.char '\n', rest)
      | 'r' => some (.char '\r', rest)
      | 'v' => some (.char '\x0b', rest)
      | 'A' => some (.place .textStart, rest)
      | 'z' => some (.place .textEnd, rest)
      | 'B' => word .insideWord rest
      | '<' => word .wordStart rest
      | '>' => word .wordEnd rest
      | 'b' =>
        match braced? rest with
        | some (name, after) =>
          match String.ofList name with
          | "start" => word .wordStart after
          | "end" => word .wordEnd after
          | "start-half" => word .noWordBefore after
          | "end-half" => word .noWordBehind after
          | _ => if name.all fun c => c.isAlpha || c == '-' then none else word .wordEdge rest
        | none => word .wordEdge rest
      | 'x' => character (numbered? 2 rest)
      | 'u' => character (numbered? 4 rest)
      | 'U' => character (numbered? 8 rest)
      | 'p' => if flags.ascii then none else property rest
      | 'P' =>
        if flags.ascii then none
        else (property rest).map fun (escape, rest) =>
          match escape with
          | .set accepts => (.set fun c => !accepts c, rest)
          | other => (other, rest)
      | _ => if c.isAlphanum || 128 ≤ c.toNat then none else some (.char c, rest)
where
  /-- Within ASCII, a number beyond it is no character. -/
  character (read : Option (Char × List Char)) : Option (Escape × List Char) := do
    let (c, rest) ← read
    guard (!flags.ascii || c.toNat < 128)
    return (.char c, rest)
  property (rest : List Char) : Option (Escape × List Char) :=
    match rest with
    | '\x7b' :: _ => do
      let (name, after) ← braced? rest
      match name with
      | '^' :: name =>
        let accepts ← propertySet? (String.ofList name)
        return (.set fun c => !accepts c, after)
      | _ => return (.set (← propertySet? (String.ofList name)), after)
    | c :: after => do return (.set (← propertySet? (String.ofList [c])), after)
    | [] => none

/-- One end of a range, or a set, inside brackets. -/
def readMember (flags : Flags) (rest : List Char) : Option (Escape × List Char) :=
  match rest with
  | [] => none
  | '\\' :: rest => do
    let (escape, after) ← readEscape flags rest
    match escape with
    | .place _ => none
    | _ => return (escape, after)
  | c :: rest => if flags.ascii && 128 ≤ c.toNat then none else some (.char c, rest)

/-- Skip blanks and comments where they do not count. -/
def skipVerbose (flags : Flags) : (fuel : Nat) → List Char → List Char
  | 0, text => text
  | fuel + 1, text =>
    if !flags.verbose then text
    else
      match text with
      | '#' :: rest => skipVerbose flags fuel (rest.dropWhile (· != '\n'))
      | c :: rest => if Text.isBlank c then skipVerbose flags fuel rest else text
      | [] => []

/-- Operators between the sets of a class. -/
inductive SetOperator
  | intersection
  | difference
  | symmetricDifference

def SetOperator.apply (first second : Char → Bool) : SetOperator → Char → Bool
  | .intersection => fun c => first c && second c
  | .difference => fun c => first c && !second c
  | .symmetricDifference => fun c => first c != second c

mutual

/-- Read a class behind its opening bracket. -/
def readClass (flags : Flags) : (fuel : Nat) → List Char → Option ((Char → Bool) × List Char)
  | 0, _ => none
  | fuel + 1, text => do
    let (negated, text) := match text with
      | '^' :: rest => (true, rest)
      | _ => (false, text)
    guard (!(negated && flags.ascii))
    let dashes := text.takeWhile (· == '-')
    let text := text.drop dashes.length
    let dash (c : Char) : Bool := !dashes.isEmpty && c == '-'
    let (first, text) := match text with
      | ']' :: rest => if dashes.isEmpty then ((· == ']'), rest) else (dash, text)
      | _ => (dash, text)
    let (accepts, after) ← readItems flags id first fuel text
    return (if negated then fun c => !accepts c else accepts, after)

/-- Read the members of a class up to its closing bracket; `joined` joins what stands before the
last operator with the set behind it. -/
def readItems (flags : Flags) (joined : (Char → Bool) → Char → Bool) (sofar : Char → Bool) :
    (fuel : Nat) → List Char → Option ((Char → Bool) × List Char)
  | 0, _ => none
  | fuel + 1, text =>
    let text := skipVerbose flags (text.length + 1) text
    let further (more : Char → Bool) (rest : List Char) :=
      readItems flags joined (fun c => sofar c || more c) fuel rest
    let behind (operator : SetOperator) (rest : List Char) :=
      let first := joined sofar
      readItems flags (fun second => operator.apply first second) (fun _ => false) fuel rest
    match text with
    | [] => none
    | ']' :: rest => some (joined sofar, rest)
    | '&' :: '&' :: rest => behind .intersection rest
    | '-' :: '-' :: rest => behind .difference rest
    | '~' :: '~' :: rest => behind .symmetricDifference rest
    | '[' :: ':' :: rest =>
      let (negated, body) := match rest with
        | '^' :: body => (true, body)
        | _ => (false, rest)
      let name := body.takeWhile Char.isAlpha
      match bracketSet? (String.ofList name), body.drop name.length with
      | some accepts, ':' :: ']' :: after =>
        if negated && flags.ascii then none
        else further (flags.set fun c => accepts c != negated) after
      | _, _ => do
        let (accepts, after) ← readClass flags fuel (':' :: rest)
        further accepts after
    | '[' :: rest => do
      let (accepts, after) ← readClass flags fuel rest
      further accepts after
    | _ => do
      let (escape, after) ← readMember flags text
      let high? ← match after with
        | '-' :: next :: rest =>
          if next == ']' || next == '-' then pure none else (readMember flags (next :: rest)).map some
        | _ => pure none
      match escape, high? with
      | .set accepts, none => further accepts after
      | .char low, none => further (flags.set (· == low)) after
      | .char low, some (.char high, after) =>
        if high < low then none else further (flags.set fun c => low ≤ c && c ≤ high) after
      | _, _ => none

end

/-- Read the letters that set and, behind a dash, unset flags; none may come twice. -/
def readFlags (flags : Flags) (text : List Char) : Option (Flags × List Char) := do
  let letters := text.takeWhile fun c => c != ')' && c != ':'
  let rest := text.drop letters.length
  guard (!rest.isEmpty && letters.Nodup && letters.getLast? != some '-')
  let on := letters.takeWhile (· != '-')
  let changed ← on.foldlM (Flags.change · · true) flags
  let changed ← (letters.drop (on.length + 1)).foldlM (Flags.change · · false) changed
  return (changed, rest)

/-- The largest number of a repetition. -/
def countLimit : Nat := 0xffffffff

private def decimal? (text : List Char) : Option Nat :=
  let digits := (Text.trim (String.ofList text)).toList
  let value : Nat := digits.foldl (fun value c => value * 10 + (c.toNat - 48)) 0
  if digits.isEmpty || !digits.all Char.isDigit || countLimit < value then none else some value

/-- Read how often what stands before may be repeated. -/
def readCount (text : List Char) : Option ((Nat × Option Nat) × List Char) := do
  let (body, after) ← braced? ('\x7b' :: text)
  match body.dropWhile (· != ',') with
  | [] =>
    let count ← decimal? body
    return ((count, some count), after)
  | _ :: upper =>
    let least ← decimal? (body.takeWhile (· != ','))
    if upper.all Text.isBlank then return ((least, none), after)
    let most ← decimal? upper
    guard (least ≤ most)
    return ((least, some most), after)

def isGroupName (name : List Char) : Bool :=
  let isLetter (c : Char) : Bool := c == '_' || (Text.isWordChar c && !Text.isDecimalDigit c)
  match name with
  | c :: rest => isLetter c && rest.all fun c => Text.isWordChar c || ".[]".toList.contains c
  | [] => false

mutual

/-- Read alternatives up to the end of the group or of the text. -/
def readChoice (flags : Flags) : (fuel : Nat) → List Char → Option (Regex × List Char)
  | 0, _ => none
  | fuel + 1, text => do
    let (first, flags, rest) ← readSequence flags .empty none fuel text
    match rest with
    | '|' :: rest =>
      let (second, rest) ← readChoice flags fuel rest
      return (.choice first second, rest)
    | _ => return (first, rest)

/-- Read on behind what is read of a sequence; `last` is its last piece, which may be repeated. -/
def readSequence (flags : Flags) (front : Regex) (last : Option Regex) :
    (fuel : Nat) → List Char → Option (Regex × Flags × List Char)
  | 0, _ => none
  | fuel + 1, text =>
    let text := skipVerbose flags (text.length + 1) text
    let whole : Regex := match last with
      | some piece => .sequence front piece
      | none => front
    let again (least : Nat) (most : Option Nat) (rest : List Char) :=
      let rest := match rest with
        | '?' :: rest => rest
        | _ => rest
      match last with
      | some piece => readSequence flags front (some (.repeated least most piece)) fuel rest
      | none => none
    let one (accepts : Char → Bool) (rest : List Char) :=
      readSequence flags whole (some (.one (flags.set accepts))) fuel rest
    let place (asked : Place) (rest : List Char) :=
      readSequence flags whole (some (.place asked)) fuel rest
    match text with
    | [] => some (whole, flags, [])
    | '|' :: _ => some (whole, flags, text)
    | ')' :: _ => some (whole, flags, text)
    | '*' :: rest => again 0 none rest
    | '+' :: rest => again 1 none rest
    | '?' :: rest => again 0 (some 1) rest
    | '\x7b' :: rest => do
      let ((least, most), rest) ← readCount rest
      again least most rest
    | '^' :: rest => place flags.lineStart rest
    | '$' :: rest => place flags.lineEnd rest
    | '.' :: rest =>
      if flags.ascii then none
      else if flags.dotAll then one (fun _ => true) rest
      else one (fun c => c != '\n' && !(flags.returns && c == '\r')) rest
    | '[' :: rest => do
      let (accepts, after) ← readClass flags (rest.length + 1) rest
      readSequence flags whole (some (.one accepts)) fuel after
    | '\\' :: rest => do
      match ← readEscape flags rest with
      | (.char c, rest) => one (· == c) rest
      | (.set accepts, rest) => one accepts rest
      | (.place asked, rest) => place asked rest
    | '(' :: '?' :: rest => do
      let named := match rest with
        | 'P' :: '<' :: name => some name
        | '<' :: name => some name
        | _ => none
      match named with
      | some name =>
        let (name, rest) := (name.takeWhile (· != '>'), (name.dropWhile (· != '>')).drop 1)
        guard (isGroupName name)
        let (body, rest) ← readGroup flags fuel rest
        readSequence flags whole (some (.named name body)) fuel rest
      | none =>
        match rest with
        | ')' :: _ => none
        | _ =>
          let (changed, rest) ← readFlags flags rest
          match rest with
          | ')' :: rest => readSequence changed whole none fuel rest
          | _ =>
            let (body, rest) ← readGroup changed fuel (rest.drop 1)
            readSequence flags whole (some body) fuel rest
    | '(' :: rest => do
      let (body, rest) ← readGroup flags fuel rest
      readSequence flags whole (some body) fuel rest
    | c :: rest => one (· == c) rest

/-- Read a group up to its closing parenthesis. -/
def readGroup (flags : Flags) : (fuel : Nat) → List Char → Option (Regex × List Char)
  | 0, _ => none
  | fuel + 1, text => do
    match ← readChoice flags fuel text with
    | (body, ')' :: rest) => return (body, rest)
    | _ => none

end

/-- The largest size that is accepted. -/
def sizeLimit : Nat := 0x50000

/-- Read a regular expression. Two groups may not have one name. -/
def ofText? (text : String) : Option Regex :=
  match readChoice .none (4 * text.length + 10) text.toList with
  | some (regex, []) =>
    if regex.names.Nodup && regex.size ≤ sizeLimit then some regex else none
  | _ => none

end TabSpec.Regex
