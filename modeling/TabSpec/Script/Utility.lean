import TabSpec.Script.Session

/-! The small programs that scripts call: each reads its arguments and its input and writes output,
errors and an exit status. -/
namespace TabSpec.Script

structure Answer where
  output : List Char := []
  errors : List Char := []
  status : Nat := 0
deriving Inhabited

namespace Utility

private def chars (text : String) : List Char := text.toList

def lines (text : List Char) : List (List Char) :=
  let pieces := text.splitOn '\n'
  if pieces.getLast? = some [] then pieces.dropLast else pieces

def unlines (lines : List (List Char)) : List Char := lines.flatMap (· ++ ['\n'])

def natOf? (text : List Char) : Option Nat :=
  if text.isEmpty || !text.all Char.isDigit then none
  else some (text.foldl (fun value c => value * 10 + (c.toNat - 48)) 0)

def intOf? (text : List Char) : Option Int :=
  match text with
  | '-' :: digits => (natOf? digits).map fun value => -(value : Int)
  | '+' :: digits => (natOf? digits).map fun value => (value : Int)
  | digits => (natOf? digits).map fun value => (value : Int)

def trimBlank (text : List Char) : List Char :=
  let isBlank (c : Char) : Bool := c == ' ' || c == '\t' || c == '\n'
  ((text.dropWhile isBlank).reverse.dropWhile isBlank).reverse

def showInt (value : Int) : List Char := (toString value).toList

/-- Octal digits at the front of a text, as an octet. -/
private def octal (most : Nat) (text : List Char) : Char × List Char :=
  let digits := (text.take most).takeWhile fun c => '0' ≤ c && c ≤ '7'
  let value := digits.foldl (fun value c => value * 8 + (c.toNat - 48)) 0
  (Char.ofNat (value % 256), text.drop digits.length)

/-- Which escapes a text may hold. -/
structure Escapes where
  /-- Whether an octal number needs a leading zero. -/
  zeroOctal : Bool
  hexadecimal : Bool

/-- Undo the escapes of a text; the answer tells whether output must stop behind it. -/
def unescape (escapes : Escapes) : (fuel : Nat) → List Char → List Char × Bool
  | 0, _ => ([], false)
  | _ + 1, [] => ([], false)
  | fuel + 1, '\\' :: c :: rest =>
    let put (c : Char) (rest : List Char) :=
      let (text, stop) := unescape escapes fuel rest
      (c :: text, stop)
    match c with
    | 'a' => put '\x07' rest
    | 'b' => put '\x08' rest
    | 'f' => put '\x0c' rest
    | 'n' => put '\n' rest
    | 'r' => put '\r' rest
    | 't' => put '\t' rest
    | 'v' => put '\x0b' rest
    | '\\' => put '\\' rest
    | 'c' => ([], true)
    | '0' =>
      let (c, rest) := if escapes.zeroOctal then octal 3 rest else octal 3 ('0' :: rest)
      put c rest
    | c =>
      if !escapes.zeroOctal && '1' ≤ c && c ≤ '7' then
        let (c, rest) := octal 3 (c :: rest)
        put c rest
      else if escapes.hexadecimal && c == 'x' then
        let digits := (rest.take 2).takeWhile fun c =>
          c.isDigit || ('a' ≤ c.toLower && c.toLower ≤ 'f')
        let value := digits.foldl (fun value c => value * 16 +
          (if c.isDigit then c.toNat - 48 else c.toLower.toNat - 87)) 0
        if digits.isEmpty then put '\\' ('x' :: rest) else put (Char.ofNat value) (rest.drop digits.length)
      else if c == 'e' then put '\x1b' rest
      else
        let (text, stop) := unescape escapes fuel rest
        ('\\' :: c :: text, stop)
  | fuel + 1, c :: rest =>
    let (text, stop) := unescape escapes fuel rest
    (c :: text, stop)

def echo (dialect : Dialect) (arguments : List (List Char)) : Answer :=
  let plain (newline : Bool) (words : List (List Char)) : List Char :=
    [' '].intercalate words ++ if newline then ['\n'] else []
  let escaped (newline : Bool) (words : List (List Char)) : List Char :=
    let text := [' '].intercalate words
    let (text, stop) := unescape ⟨true, dialect == .bash⟩ (text.length + 1) text
    text ++ if newline && !stop then ['\n'] else []
  match dialect with
  | .standard =>
    match arguments with
    | ['-', 'n'] :: words => { output := escaped false words }
    | words => { output := escaped true words }
  | .bash =>
    let isOption (word : List Char) : Bool :=
      match word with
      | '-' :: c :: rest => (c :: rest).all fun c => c == 'n' || c == 'e' || c == 'E'
      | _ => false
    let options := (arguments.takeWhile isOption).flatMap (·.drop 1)
    let words := arguments.dropWhile isOption
    let newline := !options.contains 'n'
    let escapes := (options.filter (· != 'n')).getLast? == some 'e'
    { output := if escapes then escaped newline words else plain newline words }

/-- A directive of a format, between its percent sign and its letter. -/
structure Directive where
  left : Bool := false
  zero : Bool := false
  plus : Bool := false
  space : Bool := false
  alternate : Bool := false
  width : Nat := 0
  precision : Option Nat := none

def Directive.pad (directive : Directive) (text : List Char) : List Char :=
  let missing := directive.width - text.length
  if directive.left then text ++ List.replicate missing ' ' else List.replicate missing ' ' ++ text

/-- A number with its sign, filled with zeros where the directive asks for it. -/
def Directive.number (directive : Directive) (negative : Bool) (mark digits : List Char) :
    List Char :=
  let digits := match directive.precision with
    | some least => List.replicate (least - digits.length) '0' ++ digits
    | none => digits
  let sign := if negative then ['-'] else if directive.plus then ['+']
    else if directive.space then [' '] else []
  let front := sign ++ mark
  if directive.zero && !directive.left && directive.precision.isNone then
    front ++ List.replicate (directive.width - front.length - digits.length) '0' ++ digits
  else directive.pad (front ++ digits)

def readFlags : Directive → List Char → Directive × List Char
  | directive, '-' :: rest => readFlags { directive with left := true } rest
  | directive, '0' :: rest => readFlags { directive with zero := true } rest
  | directive, '+' :: rest => readFlags { directive with plus := true } rest
  | directive, ' ' :: rest => readFlags { directive with space := true } rest
  | directive, '#' :: rest => readFlags { directive with alternate := true } rest
  | directive, rest => (directive, rest)

/-- The integer that an argument of a format writes. -/
def formatInt (word : List Char) : Int × Bool :=
  match word with
  | [] => (0, true)
  | '\'' :: c :: _ => (c.toNat, true)
  | '"' :: c :: _ => (c.toNat, true)
  | word =>
    let (negative, digits) := match word with
      | '-' :: rest => (true, rest)
      | '+' :: rest => (false, rest)
      | rest => (false, rest)
    let (base, digits) := match digits with
      | '0' :: 'x' :: rest => (16, rest)
      | '0' :: 'X' :: rest => (16, rest)
      | '0' :: rest => (8, '0' :: rest)
      | rest => (10, rest)
    let valueOf (c : Char) : Nat := if c.isDigit then c.toNat - 48 else c.toLower.toNat - 87
    let valid := digits.takeWhile fun c => (c.isDigit || c.isAlpha) && valueOf c < base
    let value : Int := (valid.foldl (fun value c => value * base + valueOf c) 0 : Nat)
    (if negative then -value else value, valid.length == digits.length && !digits.isEmpty)

/-- The result of writing a format once. -/
structure Formatted where
  output : List Char
  errors : List Char
  rest : List (List Char)
  consumed : Bool := false
  stopped : Bool := false
  status : Nat := 0

/-- Write a format once, taking arguments as its directives ask for them. -/
def formatOnce (complaint : List Char) (dialect : Dialect) : (fuel : Nat) → List Char → Formatted → Formatted
  | 0, _, done => done
  | _ + 1, [], done => done
  | fuel + 1, '%' :: '%' :: rest, done =>
    formatOnce complaint dialect fuel rest { done with output := done.output ++ ['%'] }
  | fuel + 1, '%' :: rest, done =>
    let take (done : Formatted) : List Char × Formatted :=
      match done.rest with
      | word :: words => (word, { done with rest := words, consumed := true })
      | [] => ([], done)
    let (directive, rest) := readFlags {} rest
    let (width, rest, done) := match rest with
      | '*' :: rest =>
        let (word, done) := take done
        ((formatInt word).1.toNat, rest, done)
      | rest => ((natOf? (rest.takeWhile Char.isDigit)).getD 0, rest.dropWhile Char.isDigit, done)
    let (precision, rest, done) := match rest with
      | '.' :: '*' :: rest =>
        let (word, done) := take done
        (some (formatInt word).1.toNat, rest, done)
      | '.' :: rest =>
        (some ((natOf? (rest.takeWhile Char.isDigit)).getD 0), rest.dropWhile Char.isDigit, done)
      | rest => (none, rest, done)
    let directive := { directive with width, precision }
    match rest with
    | [] => { done with output := done.output ++ ['%'] }
    | c :: rest =>
      let (word, done) := take done
      let clip (text : List Char) : List Char :=
        match precision with
        | some most => text.take most
        | none => text
      let put (text : List Char) (done : Formatted) : Formatted :=
        formatOnce complaint dialect fuel rest { done with output := done.output ++ text }
      let number (render : Int → List Char) : Formatted :=
        let (value, valid) := formatInt word
        let errors := if valid then [] else
          complaint ++ "printf: ".toList ++ word ++ (if dialect == .bash then ": invalid number\n"
            else ": expected numeric value\n").toList
        put (render value)
          { done with errors := done.errors ++ errors, status := if valid then done.status else 1 }
      let unsigned (base : Nat) (value : Int) : List Char :=
        Nat.toDigits base (value % 0x10000000000000000).toNat
      match c with
      | 's' => put (directive.pad (clip word)) done
      | 'c' => put (directive.pad (word.take 1)) done
      | 'b' =>
        let (text, stop) := unescape ⟨true, dialect == .bash⟩ (word.length + 1) word
        if stop then
          { done with output := done.output ++ directive.pad (clip text), stopped := true }
        else put (directive.pad (clip text)) done
      | 'd' | 'i' =>
        number fun value => directive.number (value < 0) [] (Nat.toDigits 10 value.natAbs)
      | 'u' => number fun value => directive.number false [] (unsigned 10 value)
      | 'o' => number fun value =>
          directive.number false (if directive.alternate then ['0'] else []) (unsigned 8 value)
      | 'x' => number fun value =>
          directive.number false (if directive.alternate then ['0', 'x'] else []) (unsigned 16 value)
      | 'X' => number fun value =>
          directive.number false (if directive.alternate then ['0', 'X'] else [])
            ((unsigned 16 value).map Char.toUpper)
      | c =>
        { done with
          errors := done.errors ++ complaint ++ "printf: %".toList ++ [c] ++
            ": invalid directive\n".toList
          stopped := true, status := if dialect = .bash then 1 else 2 }
  | fuel + 1, '\\' :: rest, done =>
    let most := match rest with
      | c :: _ => if '0' ≤ c && c ≤ '7' then 3 else if c == 'x' then 3 else 1
      | [] => 0
    let digits := (rest.take most).takeWhile fun c => '0' ≤ c && c ≤ '7'
    let escape := match rest with
      | 'x' :: _ => rest.take 3
      | 'c' :: _ => []
      | c :: _ => if digits.isEmpty then [c] else digits
      | [] => []
    let (text, stop) := unescape ⟨false, dialect == .bash⟩ (escape.length + 2) ('\\' :: escape)
    if stop then { done with stopped := true }
    else formatOnce complaint dialect fuel (rest.drop escape.length) { done with output := done.output ++ text }
  | fuel + 1, c :: rest, done =>
    formatOnce complaint dialect fuel rest { done with output := done.output ++ [c] }

/-- Write a format again and again until no argument is left. -/
def formatAll (complaint : List Char) (dialect : Dialect) (format : List Char) : (fuel : Nat) → Formatted → Formatted
  | 0, done => done
  | fuel + 1, done =>
    let once := formatOnce complaint dialect (format.length + 1) format { done with consumed := false }
    if once.stopped || once.rest.isEmpty || !once.consumed then once
    else formatAll complaint dialect format fuel once

def printf (session : Session) (arguments : List (List Char)) : Answer :=
  let arguments := match arguments with
    | ['-', '-'] :: rest => rest
    | rest => rest
  match arguments with
  | [] =>
    { errors := session.complaint ++ "printf: usage: printf format [arg ...]\n".toList, status := 2 }
  | format :: words =>
    let done := formatAll session.complaint session.dialect format (words.length + 1)
      { output := [], errors := [], rest := words }
    { output := done.output, errors := done.errors, status := done.status }

private def missingOperand (name : String) : Answer :=
  let message := name ++ ": missing operand\nTry '" ++ name ++ " --help' for more information.\n"
  { errors := message.toList, status := 1 }

private def trimSlashes (path : List Char) : List Char :=
  (path.reverse.dropWhile (· == '/')).reverse

def basename (arguments : List (List Char)) : Answer :=
  let arguments := if arguments.head? == some ['-', '-'] then arguments.drop 1 else arguments
  match arguments with
  | [] => missingOperand "basename"
  | path :: rest =>
    let trimmed := trimSlashes path
    let name := if trimmed.isEmpty then path.take 1
      else (trimmed.reverse.takeWhile (· != '/')).reverse
    let name := match rest with
      | ending :: _ =>
        if ending.isSuffixOf name && ending.length < name.length then
          name.take (name.length - ending.length)
        else name
      | [] => name
    { output := name ++ ['\n'] }

def dirname (arguments : List (List Char)) : Answer :=
  let arguments := if arguments.head? == some ['-', '-'] then arguments.drop 1 else arguments
  if arguments.isEmpty then missingOperand "dirname"
  else
    let one (path : List Char) : List Char :=
      let trimmed := trimSlashes path
      if trimmed.isEmpty then path.take 1
      else
        let above := (trimmed.reverse.dropWhile (· != '/')).reverse
        if above.isEmpty then ['.']
        else
          let above' := trimSlashes above
          if above'.isEmpty then ['/'] else above'
    { output := unlines (arguments.map one) }

/-- What the files named by arguments hold, one after the other; without any, the input. -/
def contents (name : String) (session : Session) (operands : List (List Char)) :
    List Char × List Char :=
  let operands := if operands.isEmpty then [['-']] else operands
  operands.foldl (fun (text, errors) operand =>
    if operand == ['-'] then (text ++ session.input, errors)
    else
      match session.files.read (session.path operand) with
      | .ok content => (text ++ Text.toOctets content, errors)
      | .error fault =>
        (text, errors ++ (name ++ ": ").toList ++ operand ++
          (": " ++ fault.reason ++ "\n").toList))
    ([], [])

private def optionsOf (arguments : List (List Char)) : List Char × List (List Char) :=
  let isOption (word : List Char) : Bool := word.head? == some '-' && 1 < word.length
  let options := (arguments.takeWhile isOption).filter (· != ['-', '-'])
  (options.flatMap (·.drop 1), arguments.dropWhile isOption)

private def answer (output errors : List Char) : Answer :=
  { output, errors, status := if errors.isEmpty then 0 else 1 }

def cat (session : Session) (arguments : List (List Char)) : Answer :=
  let (_, operands) := optionsOf arguments
  let (text, errors) := contents "cat" session operands
  answer text errors

private def lessEq : List Char → List Char → Bool
  | [], _ => true
  | _ :: _, [] => false
  | c :: first, d :: second => c.toNat < d.toNat || (c == d && lessEq first second)

def sort (session : Session) (arguments : List (List Char)) : Answer :=
  let (options, operands) := optionsOf arguments
  let (text, errors) := contents "sort" session operands
  let value (line : List Char) : Int :=
    let line := line.dropWhile fun c => c == ' ' || c == '\t'
    let digits := line.take ((line.drop 1).takeWhile Char.isDigit).length.succ
    (intOf? digits).getD 0
  let before (first second : List Char) : Bool :=
    if options.contains 'n' then
      value first < value second || (value first == value second && lessEq first second)
    else lessEq first second
  let sorted := (lines text).mergeSort before
  let sorted := if options.contains 'r' then sorted.reverse else sorted
  let sorted := if options.contains 'u' then sorted.eraseDups else sorted
  answer (unlines sorted) errors

def uniq (session : Session) (arguments : List (List Char)) : Answer :=
  let (options, operands) := optionsOf arguments
  let (text, errors) := contents "uniq" session operands
  let runs := (lines text).foldr (fun line runs =>
    match runs with
    | (other, count) :: rest => if other == line then (line, count + 1) :: rest
      else (line, 1) :: runs
    | [] => [(line, 1)]) ([] : List (List Char × Nat))
  let runs := if options.contains 'd' then runs.filter (1 < ·.2) else runs
  let runs := if options.contains 'u' then runs.filter (·.2 == 1) else runs
  let shown := runs.map fun (line, count) =>
    if options.contains 'c' then
      let digits := (toString count).toList
      List.replicate (7 - digits.length) ' ' ++ digits ++ ' ' :: line
    else line
  answer (unlines shown) errors

/-- A count given as `-n N`, `-nN` or `-N`, and the operands. -/
private def countOption (default : Nat) (arguments : List (List Char)) :
    Nat × Bool × List (List Char) :=
  match arguments with
  | ['-', 'n'] :: count :: rest =>
    match count with
    | '+' :: digits => ((natOf? digits).getD default, true, rest)
    | digits => ((natOf? digits).getD default, false, rest)
  | ('-' :: 'n' :: count) :: rest =>
    match count with
    | '+' :: digits => ((natOf? digits).getD default, true, rest)
    | digits => ((natOf? digits).getD default, false, rest)
  | ('-' :: digits) :: rest =>
    match natOf? digits with
    | some count => (count, false, rest)
    | none => (default, false, arguments)
  | rest => (default, false, rest)

def head (session : Session) (arguments : List (List Char)) : Answer :=
  match arguments with
  | ['-', 'c'] :: count :: operands =>
    let (text, errors) := contents "head" session operands
    answer (text.take ((natOf? count).getD 0)) errors
  | _ =>
  let (count, _, operands) := countOption 10 arguments
  let (text, errors) := contents "head" session operands
  answer (unlines ((lines text).take count)) errors

def tail (session : Session) (arguments : List (List Char)) : Answer :=
  let (count, fromStart, operands) := countOption 10 arguments
  let (text, errors) := contents "tail" session operands
  let all := lines text
  let kept := if fromStart then all.drop (count - 1) else all.drop (all.length - count)
  answer (unlines kept) errors

def wc (session : Session) (arguments : List (List Char)) : Answer :=
  let (options, operands) := optionsOf arguments
  let (text, errors) := contents "wc" session operands
  let isSpace (c : Char) : Bool := c == ' ' || c == '\t' || c == '\n' || c == '\r'
  let words := (text.splitOnP isSpace).filter (!·.isEmpty)
  let counts := [('l', text.count '\n'), ('w', words.length), ('c', text.length)]
  let options := if options.isEmpty then ['l', 'w', 'c'] else options
  let shown := (counts.filter fun count => options.contains count.1).map (·.2)
  let numbers := shown.map fun count => (toString count).toList
  let width := if operands.isEmpty then 7 else (toString text.length).length
  let padded := match numbers with
    | [single] => single
    | several => [' '].intercalate (several.map fun digits =>
        List.replicate (width - digits.length) ' ' ++ digits)
  let name := match operands with
    | [operand] => ' ' :: operand
    | _ => []
  answer (padded ++ name ++ ['\n']) errors

/-- The characters that a set such as `a-z` stands for. -/
private def charSet : (fuel : Nat) → List Char → List Char
  | 0, _ => []
  | _ + 1, [] => []
  | fuel + 1, '\\' :: c :: rest =>
    (unescape ⟨false, false⟩ 3 ['\\', c]).1 ++ charSet fuel rest
  | fuel + 1, '[' :: ':' :: 'u' :: 'p' :: 'p' :: 'e' :: 'r' :: ':' :: ']' :: rest =>
    "ABCDEFGHIJKLMNOPQRSTUVWXYZ".toList ++ charSet fuel rest
  | fuel + 1, '[' :: ':' :: 'l' :: 'o' :: 'w' :: 'e' :: 'r' :: ':' :: ']' :: rest =>
    "abcdefghijklmnopqrstuvwxyz".toList ++ charSet fuel rest
  | fuel + 1, first :: '-' :: last :: rest =>
    ((List.range (last.toNat + 1 - first.toNat)).map fun n => Char.ofNat (first.toNat + n)) ++
      charSet fuel rest
  | fuel + 1, c :: rest => c :: charSet fuel rest

def tr (session : Session) (arguments : List (List Char)) : Answer :=
  let (options, operands) := optionsOf arguments
  let set (text : List Char) : List Char := charSet (text.length + 1) text
  match operands with
  | [first] =>
    let first := set first
    if options.contains 'd' then { output := session.input.filter (!first.contains ·) }
    else if options.contains 's' then
      { output := session.input.foldr (fun c rest =>
          if rest.head? == some c && first.contains c then rest else c :: rest) [] }
    else { errors := "tr: missing operand\n".toList, status := 1 }
  | first :: second :: _ =>
    let first := set first
    let second := set second
    let change (c : Char) : Char :=
      match first.idxOf? c with
      | some index => (second[index]?).getD (second.getLast?.getD c)
      | none => c
    { output := session.input.map change }
  | [] => { errors := "tr: missing operand\n".toList, status := 1 }

/-- What `cut` is to cut out: a delimiter, a list of ranges, whether they count characters. -/
private structure Cutting where
  delimiter : Char := '\t'
  ranges : List Char := []
  ofCharacters : Bool := false
  operands : List (List Char) := []

private def Cutting.read : List (List Char) → Cutting
  | ('-' :: 'd' :: c :: _) :: rest => { Cutting.read rest with delimiter := c }
  | ['-', 'd'] :: (c :: _) :: rest => { Cutting.read rest with delimiter := c }
  | ['-', 'f'] :: ranges :: rest => { Cutting.read rest with ranges }
  | ('-' :: 'f' :: ranges) :: rest => { Cutting.read rest with ranges }
  | ['-', 'c'] :: ranges :: rest => { Cutting.read rest with ranges, ofCharacters := true }
  | ('-' :: 'c' :: ranges) :: rest => { Cutting.read rest with ranges, ofCharacters := true }
  | operands => { operands }

def cut (session : Session) (arguments : List (List Char)) : Answer :=
  let ⟨mark, list, ofCharacters, operands⟩ := Cutting.read arguments
  let (text, errors) := contents "cut" session operands
  let wanted (index : Nat) : Bool := (list.splitOn ',').any fun range =>
    match range.splitOn '-' with
    | [single] => natOf? single == some index
    | [first, last] =>
      (natOf? first).getD 1 ≤ index && (last.isEmpty || index ≤ (natOf? last).getD 0)
    | _ => false
  let one (line : List Char) : List Char :=
    if ofCharacters then (line.zipIdx.filter fun (_, index) => wanted (index + 1)).map (·.1)
    else if !line.contains mark then line
    else
      let fields := line.splitOn mark
      [mark].intercalate
        ((fields.zipIdx.filter fun (_, index) => wanted (index + 1)).map (·.1))
  answer (unlines ((lines text).map one)) errors

def seq (arguments : List (List Char)) : Answer :=
  let count (first step last : Int) : Answer :=
    let length := if step = 0 then 0 else ((last - first) / step + 1).toNat
    let length := if (0 < step && last < first) || (step < 0 && first < last) then 0 else length
    { output := unlines ((List.range length).map fun n => showInt (first + step * (n : Nat))) }
  match arguments.map intOf? with
  | [some last] => count 1 1 last
  | [some first, some last] => count first 1 last
  | [some first, some step, some last] => count first step last
  | _ => { errors := "seq: invalid argument\n".toList, status := 1 }

def ls (session : Session) (arguments : List (List Char)) : Answer :=
  let (options, operands) := optionsOf arguments
  let operands := if operands.isEmpty then [['.']] else operands
  let kindOf (operand : List Char) := session.files.status (session.path operand)
  let missing := operands.filter fun operand => !(kindOf operand).isOk
  let errors := missing.flatMap fun operand => "ls: cannot access '".toList ++ operand ++
    "': No such file or directory\n".toList
  let sorted := (operands.filter fun operand => (kindOf operand).isOk).mergeSort lessEq
  let isDirectory (operand : List Char) : Bool :=
    session.files.isDirectory (session.path operand) && !options.contains 'd'
  let (directories, files) := sorted.partition isDirectory
  let contentOf (operand : List Char) : List Char :=
    let names := (session.files.list (session.path operand)).toOption.getD []
    let names := (names.map Text.toOctets).filter fun name =>
      options.contains 'a' || options.contains 'A' || name.head? != some '.'
    unlines ((if options.contains 'a' then [['.'], ['.', '.']] else []) ++ names)
  let withNames := 1 < operands.length
  let blocks := directories.map fun operand =>
    (if withNames then operand ++ [':', '\n'] else []) ++ contentOf operand
  let blocks := if files.isEmpty then blocks else unlines files :: blocks
  { output := ['\n'].intercalate blocks, errors, status := if errors.isEmpty then 0 else 2 }

/-- Whether a condition of `test` holds; `none` for one that is malformed. -/
def test (session : Session) : (fuel : Nat) → List (List Char) → Option Bool
  | 0, _ => none
  | _ + 1, [] => some false
  | _ + 1, [word] => some (!word.isEmpty)
  | fuel + 1, ['!'] :: rest =>
    match binary rest, rest with
    | some value, _ => some (!value)
    | none, rest => (test session fuel rest).map (!·)
  | fuel + 1, words =>
    match binary words with
    | some value => some value
    | none =>
      match words with
      | [operator, operand] => unary operator operand
      | _ =>
        match words.idxOf? ['-', 'o'] with
        | some index => do
          let first ← test session fuel (words.take index)
          let second ← test session fuel (words.drop (index + 1))
          return first || second
        | none =>
          match words.idxOf? ['-', 'a'] with
          | some index => do
            let first ← test session fuel (words.take index)
            let second ← test session fuel (words.drop (index + 1))
            return first && second
          | none =>
            match words with
            | ['('] :: rest =>
              if rest.getLast? == some [')'] then test session fuel rest.dropLast else none
            | _ => none
where
  unary (operator operand : List Char) : Option Bool :=
    let kind := (session.files.status (session.path operand)).toOption
    let isLink := session.files.isLink (session.path operand)
    match String.ofList operator with
    | "-n" => some (!operand.isEmpty)
    | "-z" => some operand.isEmpty
    | "-e" => some kind.isSome
    | "-f" => some (match kind with
        | some (.file _ _) => true
        | some .utility => true
        | _ => false)
    | "-d" => some (kind == some .directory)
    | "-r" => some kind.isSome
    | "-w" => some kind.isSome
    | "-x" => some (kind == some .directory || session.files.isExecutable (session.path operand))
    | "-L" => some isLink
    | "-h" => some isLink
    | "-s" => some (match kind with
        | some (.file content _) => content != ""
        | some _ => true
        | none => false)
    | "-t" => some false
    | _ => none
  binary (words : List (List Char)) : Option Bool :=
    match words with
    | [first, operator, second] =>
      let numbers (relation : Int → Int → Bool) : Option Bool := do
        return relation (← intOf? (trimBlank first)) (← intOf? (trimBlank second))
      match String.ofList operator with
      | "=" => some (first == second)
      | "==" => some (first == second)
      | "!=" => some (first != second)
      | "-eq" => numbers (· == ·)
      | "-ne" => numbers (· != ·)
      | "-lt" => numbers (· < ·)
      | "-le" => numbers (· ≤ ·)
      | "-gt" => numbers (· > ·)
      | "-ge" => numbers (· ≥ ·)
      | "<" => some (!lessEq second first)
      | ">" => some (!lessEq first second)
      | _ => none
    | _ => none

/-- Run a program that depends on its arguments, its input and the files alone. -/
def run? (name : String) (session : Session) (arguments : List (List Char)) : Option Answer :=
  match name with
  | "true" => some {}
  | ":" => some {}
  | "false" => some { status := 1 }
  | "echo" => some (echo session.dialect arguments)
  | "printf" => some (printf session arguments)
  | "cat" => some (cat session arguments)
  | "basename" => some (basename arguments)
  | "dirname" => some (dirname arguments)
  | "pwd" => some { output := Text.toOctets session.directory ++ ['\n'] }
  | "sort" => some (sort session arguments)
  | "uniq" => some (uniq session arguments)
  | "head" => some (head session arguments)
  | "tail" => some (tail session arguments)
  | "wc" => some (wc session arguments)
  | "tr" => some (tr session arguments)
  | "cut" => some (cut session arguments)
  | "seq" => some (seq arguments)
  | "ls" => some (ls session arguments)
  | "rev" =>
    let (text, errors) := contents "rev" session arguments
    some (answer (unlines ((lines text).map List.reverse)) errors)
  | "tac" =>
    let (text, errors) := contents "tac" session arguments
    some (answer (unlines (lines text).reverse) errors)
  | "sleep" => some {}
  | "printenv" =>
    match arguments with
    | [] => some { output := unlines (session.environment.map fun (name, value) =>
        name ++ '=' :: value) }
    | name :: _ =>
      match session.environment.lookup name with
      | some value => some { output := value ++ ['\n'] }
      | none => some { status := 1 }
  | "test" => some (condition arguments)
  | "[" =>
    if arguments.getLast? == some [']'] then some (condition arguments.dropLast)
    else
      let message := if session.dialect = .bash then "[: missing `]'\n" else "[: missing ]\n"
      some { errors := session.complaint ++ message.toList, status := 2 }
  | _ => none
where
  condition (words : List (List Char)) : Answer :=
    match test session (words.length + 2) words with
    | some true => {}
    | some false => { status := 1 }
    | none =>
      let message := match words with
        | [first, operator, second] =>
          if ["-eq", "-ne", "-lt", "-le", "-gt", "-ge"].contains (String.ofList operator) then
            illegal (if (intOf? (trimBlank first)).isNone then first else second)
          else unexpected first
        | [first, operator] =>
          if ["=", "!=", "-eq", "-ne", "-lt", "-le", "-gt", "-ge"].contains
              (String.ofList operator) && session.dialect = .standard then
            operator ++ ": argument expected".toList
          else unexpected first
        | words => unexpected (words[2]?.getD [])
      { errors := session.complaint ++ (name ++ ": ").toList ++ message ++ ['\n'], status := 2 }
  illegal (word : List Char) : List Char :=
    match session.dialect with
    | .standard => "Illegal number: ".toList ++ word
    | .bash => word ++ ": integer expression expected".toList
  unexpected (word : List Char) : List Char :=
    match session.dialect with
    | .standard => word ++ ": unexpected operator".toList
    | .bash => "too many arguments".toList

/-- Put a file at the place that a path leads to, if there is a directory for it. -/
private def put? (session : Session) (path : List Char) (kind : FileKind) : Option Session :=
  let path := session.path path
  let above := (Path.parent? path).getD "/"
  match session.files.isDirectory above, session.files.locate above with
  | true, .ok place =>
    some { session with files := session.files.put (place ++ [Path.fileName path]) kind }
  | _, _ => none

/-- Why a program could not change a file. -/
private def refusal (name : String) (session : Session) (path : List Char) : List Char :=
  let activity := match name with
    | "mkdir" => ": cannot create directory '"
    | "rm" => ": cannot remove '"
    | _ => ": cannot touch '"
  let reason := if name = "mkdir" && session.files.exists? (session.path path) then "File exists"
    else if name = "rm" && session.files.isDirectory (session.path path) then "Is a directory"
    else "No such file or directory"
  (name ++ activity).toList ++ path ++ ("': " ++ reason ++ "\n").toList

/-- Run a program that changes files. -/
def change? (name : String) (session : Session) (arguments : List (List Char)) :
    Option (Session × Answer) :=
  let (options, operands) := optionsOf arguments
  let each (one : Session → List Char → Option Session) : Session × Answer :=
    operands.foldl (fun (session, result) operand =>
      match one session operand with
      | some session => (session, result)
      | none => (session, { result with errors := result.errors ++ refusal name session operand
                                        status := 1 })) (session, {})
  match name with
  | "mkdir" => some (each fun session path =>
      if session.files.exists? (session.path path) then
        if options.contains 'p' then some session else none
      else if options.contains 'p' then
        let parts := (Path.components (session.path path)).filter (· != "")
        some { session with files := session.files.put parts .directory }
      else put? session path .directory)
  | "touch" => some (each fun session path =>
      if session.files.exists? (session.path path) then some session
      else put? session path (.file "" false))
  | "rm" => some (each fun session path =>
      match session.files.locate (session.path path) with
      | .ok place =>
        if session.files.kind? place = some .directory && !options.contains 'r' then none
        else some { session with files := session.files.remove place }
      | .error _ => if options.contains 'f' then some session else none)
  | "tee" =>
    let content := Text.ofOctets session.input
    let (session, result) := each fun session path => put? session path (.file content false)
    some (session, { result with output := session.input })
  | _ => none

/-- The programs that a machine brings along. -/
def names : List String :=
  ["sh", "dash", "bash", "env", "true", "false", "echo", "printf", "cat", "basename", "dirname",
   "pwd", "sort", "uniq", "head", "tail", "wc", "tr", "cut", "seq", "ls", "rev", "tac", "sleep",
   "printenv", "test", "[", "kill", "mkdir", "touch", "rm", "tee"]

end Utility
end TabSpec.Script
