import TabSpec.Script.Syntax

/-! Reading shell scripts. A reader works on what is left of the text and keeps the line number; its
fuel bounds the depth of calls and a little more than the text's length is always enough. -/
namespace TabSpec.Script

structure Source where
  rest : List Char
  line : Nat
deriving Inhabited

abbrev Reader := StateT Source (Except SyntaxFault)

namespace Reader

def rest : Reader (List Char) := return (← get).rest

/-- Pass characters, counting the lines. -/
def pass (count : Nat) : Reader Unit :=
  modify fun source =>
    { rest := source.rest.drop count, line := source.line + (source.rest.take count).count '\n' }

def fail {Value : Type} (fault : SyntaxFault) : Reader Value := throw fault

def isBlankChar (c : Char) : Bool := c == ' ' || c == '\t'

/-- Characters that end a word. -/
def isMeta (c : Char) : Bool := " \t\n;&|()<>".toList.contains c

def isNameStart (c : Char) : Bool := c.isAlpha || c == '_'

def isNameChar (c : Char) : Bool := c.isAlphanum || c == '_'

/-- Pass blanks, joined lines and a comment. -/
def skipBlank : (fuel : Nat) → Reader Unit
  | 0 => pure ()
  | fuel + 1 => do
    match ← rest with
    | '\\' :: '\n' :: _ => pass 2; skipBlank fuel
    | '#' :: text => pass (text.takeWhile (· != '\n')).length.succ
    | c :: _ => if isBlankChar c then pass 1; skipBlank fuel
    | [] => pure ()

/-- Pass blanks and ends of lines. -/
def skipLines : (fuel : Nat) → Reader Unit
  | 0 => pure ()
  | fuel + 1 => do
    skipBlank fuel
    match ← rest with
    | '\n' :: _ => pass 1; skipLines fuel
    | _ => pure ()

/-- The word of letters that comes next. -/
def nextName : Reader (List Char) := return (← rest).takeWhile (!isMeta ·)

/-- The reserved words that end a list of commands. -/
def closers : List String := ["then", "else", "elif", "fi", "do", "done", "esac", "\x7d"]

/-- All reserved words. -/
def reserved : List String :=
  closers ++ ["if", "while", "until", "for", "case", "in", "!", "\x7b"]

def atCloser : Reader Bool := return closers.contains (String.ofList (← nextName))

/-- The operator or the character that comes next. -/
def nextOperator : Reader (List Char) := do
  let text ← rest
  match text with
  | first :: second :: _ =>
    return if first == second && ";&|<>".toList.contains first then [first, second] else [first]
  | text => return text

/-- Fail at what comes next. -/
def failHere {Value : Type} (expected : String) : Reader Value := do
  let found ← nextName
  if (← rest).isEmpty then fail (.endOfFile expected.toList)
  else if found.isEmpty then fail (.unexpected (← nextOperator) expected.toList)
  else if reserved.contains (String.ofList found) then fail (.unexpected found expected.toList)
  else fail (.unexpectedWord expected.toList)

/-- Pass a reserved word, which must come next. -/
def expectWord (fuel : Nat) (word : String) : Reader Unit := do
  skipLines fuel
  let found ← nextName
  if found = word.toList then pass word.length else failHere word

/-- A word cut at unescaped back quotes, with the escapes inside undone. -/
def backQuoted : List Char → Option (List Char × List Char)
  | [] => none
  | '`' :: rest => some ([], rest)
  | '\\' :: c :: rest => do
    let (text, after) ← backQuoted rest
    if c == '`' || c == '\\' || c == '$' then return (c :: text, after)
    else return ('\\' :: c :: text, after)
  | c :: rest => do
    let (text, after) ← backQuoted rest
    return (c :: text, after)

/-- The lines of a text up to the one that is the delimiter, and what follows. -/
def hereText (delimiter : List Char) (dropTabs : Bool) : (fuel : Nat) → List Char →
    List Char × List Char
  | 0, text => ([], text)
  | fuel + 1, text =>
    if text.isEmpty then ([], [])
    else
      let line := text.takeWhile (· != '\n')
      let after := text.drop (line.length + 1)
      let line := if dropTabs then line.dropWhile (· == '\t') else line
      if line == delimiter then ([], after)
      else
        let (body, after) := hereText delimiter dropTabs fuel after
        (line ++ ['\n'] ++ body, after)

/-- The literal text of a word without expansions. -/
def literal : Word → List Char
  | [] => []
  | .plain text :: rest => text ++ literal rest
  | .quoted text :: rest => text ++ literal rest
  | _ :: rest => literal rest

def hasQuotes (word : Word) : Bool :=
  word.any fun piece => match piece with
    | .quoted _ => true
    | _ => false

/-- A variable assignment at the front of a word. -/
def assignment? : Word → Option (List Char × Word)
  | .plain text :: rest =>
    let name := text.takeWhile isNameChar
    match text.drop name.length with
    | '=' :: value =>
      if name.head?.any isNameStart then
        some (name, if value.isEmpty then rest else .plain value :: rest)
      else none
    | _ => none
  | _ => none

/-- An expansion that is not closed. -/
def openBrace (quoted : Bool) : SyntaxFault :=
  if quoted then .unterminatedQuote else .missing ['\x7d']

/-- Join neighbouring plain characters. -/
def put (c : Char) : Word → Word
  | .plain text :: rest => .plain (c :: text) :: rest
  | word => .plain [c] :: word

mutual

/-- Read a word up to a character that ends it. -/
def word : (fuel : Nat) → Reader Word
  | 0 => fail (.endOfFile [])
  | fuel + 1 => do
    match ← rest with
    | [] => return []
    | '\\' :: '\n' :: _ => pass 2; word fuel
    | '\\' :: c :: _ => pass 2; return .quoted [c] :: (← word fuel)
    | '\'' :: text =>
      let body := text.takeWhile (· != '\'')
      if body.length = text.length then fail .unterminatedQuote
      pass (body.length + 2)
      return .quoted body :: (← word fuel)
    | '"' :: _ =>
      pass 1
      let inner ← double fuel
      return .quoted [] :: (inner ++ (← word fuel))
    | '$' :: _ =>
      pass 1
      let piece ← dollar false fuel
      match piece with
      | .plain text =>
        let after ← word fuel
        return text.foldr put after
      | piece => return piece :: (← word fuel)
    | '`' :: text =>
      let some (body, after) := backQuoted text | fail .openBackQuote
      pass (text.length - after.length + 1)
      let commands ← nested fuel body
      return .output commands false :: (← word fuel)
    | c :: _ =>
      if isMeta c then return []
      else
        pass 1
        return put c (← word fuel)

/-- Read commands from a text of their own. -/
def nested : (fuel : Nat) → List Char → Reader (List Command)
  | 0, _ => fail (.endOfFile [])
  | fuel + 1, text => do
    let outer ← get
    set { outer with rest := text : Source }
    let commands ← list fuel
    if !(← rest).isEmpty then failHere ""
    set outer
    return commands

/-- Read the inside of double quotes and the closing one. -/
def double : (fuel : Nat) → Reader Word
  | 0 => fail (.endOfFile [])
  | fuel + 1 => do
    match ← rest with
    | [] => fail .unterminatedQuote
    | '"' :: _ => pass 1; return []
    | '\\' :: '\n' :: _ => pass 2; double fuel
    | '\\' :: c :: _ =>
      pass 2
      let after ← double fuel
      if c == '$' || c == '`' || c == '"' || c == '\\' then return .quoted [c] :: after
      else return .quoted ['\\', c] :: after
    | '$' :: _ =>
      pass 1
      match ← dollar true fuel with
      | .plain text => return .quoted text :: (← double fuel)
      | piece => return piece :: (← double fuel)
    | '`' :: text =>
      let some (body, after) := backQuoted text | fail .openBackQuote
      pass (text.length - after.length + 1)
      let commands ← nested fuel body
      return .output commands true :: (← double fuel)
    | text =>
      let run := text.takeWhile fun c => !"\"\\$`".toList.contains c
      let run := if run.isEmpty then text.take 1 else run
      pass run.length
      return .quoted run :: (← double fuel)

/-- Read an expansion behind its dollar; a dollar that opens none stands for itself. -/
def dollar (quoted : Bool) : (fuel : Nat) → Reader Piece
  | 0 => fail (.endOfFile [])
  | fuel + 1 => do
    match ← rest with
    | '(' :: '(' :: _ =>
      let start ← get
      pass 2
      let inner ← sum 0 fuel
      match ← rest with
      | ')' :: ')' :: _ => pass 2; return .arithmetic inner quoted
      | _ => set start; pass 1; substitution quoted fuel
    | '(' :: _ => pass 1; substitution quoted fuel
    | '\x7b' :: _ => pass 1; braced quoted fuel
    | c :: text =>
      if isNameStart c then
        let name := c :: text.takeWhile isNameChar
        pass name.length
        return .variable name .value quoted
      else if c.isDigit || "@*#?-$!".toList.contains c then
        pass 1
        return .variable [c] .value quoted
      else return .plain ['$']
    | [] => return .plain ['$']

/-- Read commands up to the closing parenthesis. -/
def substitution (quoted : Bool) : (fuel : Nat) → Reader Piece
  | 0 => fail (.endOfFile [])
  | fuel + 1 => do
    let commands ← list fuel
    match ← rest with
    | ')' :: _ => pass 1; return .output commands quoted
    | _ => failHere ")"

/-- Read an arithmetic expression up to the parenthesis that closes it. -/
def sum (depth : Nat) : (fuel : Nat) → Reader Word
  | 0 => fail (.endOfFile [])
  | fuel + 1 => do
    match ← rest with
    | [] => fail (.missing [')', ')'])
    | '(' :: _ => pass 1; return put '(' (← sum (depth + 1) fuel)
    | ')' :: _ =>
      match depth with
      | 0 => return []
      | depth + 1 => pass 1; return put ')' (← sum depth fuel)
    | '$' :: _ =>
      pass 1
      match ← dollar true fuel with
      | .plain text => return text.foldr put (← sum depth fuel)
      | piece => return piece :: (← sum depth fuel)
    | '"' :: _ => pass 1; sum depth fuel
    | c :: _ => pass 1; return put c (← sum depth fuel)

/-- Read an expansion behind its opening brace. -/
def braced (quoted : Bool) : (fuel : Nat) → Reader Piece
  | 0 => fail (.endOfFile [])
  | fuel + 1 => do
    match ← rest with
    | '#' :: '\x7d' :: _ => pass 2; return .variable ['#'] .value quoted
    | '#' :: text =>
      let name := parameterName text
      match name, text.drop name.length with
      | _ :: _, '\x7d' :: _ => pass (name.length + 2); return .variable name .length quoted
      | _, _ => fail .badSubstitution
    | text =>
      let name := parameterName text
      if text.isEmpty then fail (openBrace quoted)
      if name.isEmpty then fail .badSubstitution
      pass name.length
      let form ← form quoted fuel
      match ← rest with
      | '\x7d' :: _ => pass 1; return .variable name form quoted
      | text => fail (if text.contains '\x7d' then .badSubstitution else openBrace quoted)
where
  parameterName (text : List Char) : List Char :=
    match text with
    | c :: rest =>
      if isNameStart c then c :: rest.takeWhile isNameChar
      else if c.isDigit then c :: rest.takeWhile Char.isDigit
      else if "@*#?-$!".toList.contains c then [c]
      else []
    | [] => []

/-- Read what is asked of a variable. -/
def form (quoted : Bool) : (fuel : Nat) → Reader Form
  | 0 => fail (.endOfFile [])
  | fuel + 1 => do
    match ← rest with
    | ':' :: '-' :: _ => pass 2; return .fallback true (← argument quoted fuel)
    | ':' :: '=' :: _ => pass 2; return .assign true (← argument quoted fuel)
    | ':' :: '+' :: _ => pass 2; return .alternative true (← argument quoted fuel)
    | ':' :: '?' :: _ => pass 2; return .demand true (← argument quoted fuel)
    | '-' :: _ => pass 1; return .fallback false (← argument quoted fuel)
    | '=' :: _ => pass 1; return .assign false (← argument quoted fuel)
    | '+' :: _ => pass 1; return .alternative false (← argument quoted fuel)
    | '?' :: _ => pass 1; return .demand false (← argument quoted fuel)
    | '%' :: '%' :: _ => pass 2; return .trimBack true (← argument false fuel)
    | '%' :: _ => pass 1; return .trimBack false (← argument false fuel)
    | '#' :: '#' :: _ => pass 2; return .trimFront true (← argument false fuel)
    | '#' :: _ => pass 1; return .trimFront false (← argument false fuel)
    | _ => return .value

/-- Read the word inside an expansion, up to its closing brace. -/
def argument (quoted : Bool) : (fuel : Nat) → Reader Word
  | 0 => fail (.endOfFile [])
  | fuel + 1 => do
    match ← rest with
    | [] => fail (openBrace quoted)
    | '\x7d' :: _ => return []
    | '\\' :: c :: _ => pass 2; return .quoted [c] :: (← argument quoted fuel)
    | '"' :: _ =>
      pass 1
      let inner ← double fuel
      return .quoted [] :: (inner ++ (← argument quoted fuel))
    | '$' :: _ =>
      pass 1
      match ← dollar quoted fuel with
      | .plain text => return text.foldr put (← argument quoted fuel)
      | piece => return piece :: (← argument quoted fuel)
    | '`' :: text =>
      let some (body, after) := backQuoted text | fail .openBackQuote
      pass (text.length - after.length + 1)
      let commands ← nested fuel body
      return .output commands quoted :: (← argument quoted fuel)
    | '\'' :: text =>
      if quoted then
        pass 1
        return .quoted ['\''] :: (← argument quoted fuel)
      else
        let body := text.takeWhile (· != '\'')
        if body.length = text.length then fail .unterminatedQuote
        pass (body.length + 2)
        return .quoted body :: (← argument quoted fuel)
    | c :: _ =>
      pass 1
      let after ← argument quoted fuel
      if quoted then return .quoted [c] :: after else return put c after

/-- Read commands up to something that ends a list. -/
def list : (fuel : Nat) → Reader (List Command)
  | 0 => fail (.endOfFile [])
  | fuel + 1 => do
    skipLines fuel
    match ← rest with
    | [] => return []
    | ')' :: _ => return []
    | ';' :: ';' :: _ => return []
    | _ =>
      if ← atCloser then return []
      let first ← chain fuel
      skipBlank fuel
      match ← rest with
      | ';' :: ';' :: _ => return [first]
      | ';' :: _ => pass 1; return first :: (← list fuel)
      | '&' :: _ => pass 1; return first :: (← list fuel)
      | '\n' :: _ => pass 1; return first :: (← list fuel)
      | _ => return [first]

/-- Read pipelines joined by `&&` and `||`. -/
def chain : (fuel : Nat) → Reader Command
  | 0 => fail (.endOfFile [])
  | fuel + 1 => do
    let first ← pipeline fuel
    chainRest first fuel

def chainRest (first : Command) : (fuel : Nat) → Reader Command
  | 0 => fail (.endOfFile [])
  | fuel + 1 => do
    skipBlank fuel
    match ← rest with
    | '&' :: '&' :: _ =>
      pass 2
      skipLines fuel
      let second ← pipeline fuel
      chainRest (.chain true first second) fuel
    | '|' :: '|' :: _ =>
      pass 2
      skipLines fuel
      let second ← pipeline fuel
      chainRest (.chain false first second) fuel
    | _ => return first

/-- Read commands joined by `|`, perhaps behind `!`. -/
def pipeline : (fuel : Nat) → Reader Command
  | 0 => fail (.endOfFile [])
  | fuel + 1 => do
    skipBlank fuel
    let negated := (← nextName) == ['!']
    if negated then pass 1
    let first ← command fuel
    let further ← stages fuel
    match negated, further with
    | false, [] => return first
    | _, _ => return .pipeline negated (first :: further)

def stages : (fuel : Nat) → Reader (List Command)
  | 0 => fail (.endOfFile [])
  | fuel + 1 => do
    skipBlank fuel
    match ← rest with
    | '|' :: '|' :: _ => return []
    | '|' :: _ =>
      pass 1
      skipLines fuel
      let next ← command fuel
      return next :: (← stages fuel)
    | _ => return []

/-- Read one command with its redirections. -/
def command : (fuel : Nat) → Reader Command
  | 0 => fail (.endOfFile [])
  | fuel + 1 => do
    skipBlank fuel
    let name := String.ofList (← nextName)
    match ← rest with
    | '(' :: _ =>
      pass 1
      let body ← list fuel
      match ← rest with
      | ')' :: _ => pass 1; redirected (.subshell body) fuel
      | _ => failHere ")"
    | _ =>
      if name = "\x7b" then
        pass 1
        let body ← list fuel
        expectWord fuel "\x7d"
        redirected (.group body) fuel
      else if name = "if" then
        pass 2
        let (arms, otherwise) ← arms fuel
        redirected (.branch arms otherwise) fuel
      else if name = "while" || name = "until" then
        pass 5
        let condition ← list fuel
        expectWord fuel "do"
        let body ← list fuel
        expectWord fuel "done"
        redirected (.loop (name == "until") condition body) fuel
      else if name = "for" then
        pass 3
        let each ← each fuel
        redirected each fuel
      else if name = "case" then
        pass 4
        skipBlank fuel
        let subject ← word fuel
        expectWord fuel "in"
        let arms ← caseArms fuel
        redirected (.select subject arms) fuel
      else if ← atCloser then failHere ""
      else simple fuel

/-- Read the arms of a conditional behind `if` or `elif`. -/
def arms : (fuel : Nat) → Reader (List (List Command × List Command) × List Command)
  | 0 => fail (.endOfFile [])
  | fuel + 1 => do
    let condition ← list fuel
    expectWord fuel "then"
    let body ← list fuel
    skipLines fuel
    let name := String.ofList (← nextName)
    if name = "elif" then
      pass 4
      let (rest, otherwise) ← arms fuel
      return ((condition, body) :: rest, otherwise)
    else if name = "else" then
      pass 4
      let otherwise ← list fuel
      expectWord fuel "fi"
      return ([(condition, body)], otherwise)
    else
      expectWord fuel "fi"
      return ([(condition, body)], [])

/-- Read a loop over words behind `for`. -/
def each : (fuel : Nat) → Reader Command
  | 0 => fail (.endOfFile [])
  | fuel + 1 => do
    skipBlank fuel
    let name ← nextName
    if !(name.head?.any isNameStart && name.all isNameChar) then fail .loopVariable
    pass name.length
    skipLines fuel
    let words ←
      if (← nextName) == ['i', 'n'] then
        pass 2
        pure (some (← words fuel))
      else pure none
    skipBlank fuel
    match ← rest with
    | ';' :: _ => pass 1
    | _ => pure ()
    expectWord fuel "do"
    let body ← list fuel
    expectWord fuel "done"
    return .each name words body

def words : (fuel : Nat) → Reader (List Word)
  | 0 => fail (.endOfFile [])
  | fuel + 1 => do
    skipBlank fuel
    match ← rest with
    | [] => return []
    | c :: _ =>
      if isMeta c then return []
      else
        let first ← word fuel
        return first :: (← words fuel)

/-- Read the arms of a selection up to its end. -/
def caseArms : (fuel : Nat) → Reader (List (List Word × List Command))
  | 0 => fail (.endOfFile [])
  | fuel + 1 => do
    skipLines fuel
    if (← nextName) == "esac".toList then
      pass 4
      return []
    match ← rest with
    | '(' :: _ => pass 1
    | _ => pure ()
    let patterns ← patterns fuel
    let body ← list fuel
    match ← rest with
    | ';' :: ';' :: _ => pass 2
    | _ => if (← nextName) != "esac".toList then failHere ";;"
    return (patterns, body) :: (← caseArms fuel)

/-- Read the patterns of an arm and the parenthesis behind them. -/
def patterns : (fuel : Nat) → Reader (List Word)
  | 0 => fail (.endOfFile [])
  | fuel + 1 => do
    skipBlank fuel
    let first ← word fuel
    skipBlank fuel
    match ← rest with
    | '|' :: _ => pass 1; return first :: (← patterns fuel)
    | ')' :: _ => pass 1; return [first]
    | _ => failHere ")"

/-- Read the redirections behind a command. -/
def redirected (inner : Command) : (fuel : Nat) → Reader Command
  | 0 => fail (.endOfFile [])
  | fuel + 1 => do
    let redirects ← redirects fuel
    return if redirects.isEmpty then inner else .redirected inner redirects

def redirects : (fuel : Nat) → Reader (List Redirect)
  | 0 => fail (.endOfFile [])
  | fuel + 1 => do
    skipBlank fuel
    match ← redirect? fuel with
    | some redirect => return redirect :: (← redirects fuel)
    | none => return []

/-- Read a redirection, if one comes next. -/
def redirect? : (fuel : Nat) → Reader (Option Redirect)
  | 0 => fail (.endOfFile [])
  | fuel + 1 => do
    let text ← rest
    let digits := text.takeWhile Char.isDigit
    let descriptor (default : Nat) : Nat :=
      if digits.isEmpty then default
      else digits.foldl (fun value c => value * 10 + (c.toNat - 48)) 0
    match text.drop digits.length with
    | '>' :: '>' :: _ =>
      pass (digits.length + 2)
      return some (.output (descriptor 1) true (← target fuel))
    | '>' :: '&' :: _ =>
      pass (digits.length + 2)
      return some (.copy (descriptor 1) (← target fuel))
    | '>' :: '|' :: _ =>
      pass (digits.length + 2)
      return some (.output (descriptor 1) false (← target fuel))
    | '>' :: _ =>
      pass (digits.length + 1)
      return some (.output (descriptor 1) false (← target fuel))
    | '<' :: '<' :: _ =>
      pass (digits.length + 2)
      let dropTabs := (← rest).head? == some '-'
      if dropTabs then pass 1
      let delimiter ← target fuel
      let source ← get
      let line := source.rest.takeWhile (· != '\n')
      let after := source.rest.drop (line.length + 1)
      let (body, after) := hereText (literal delimiter) dropTabs source.rest.length after
      set { source with rest := line ++ '\n' :: after : Source }
      if hasQuotes delimiter then return some (.text [.quoted body])
      else
        let outer ← get
        set { outer with rest := body ++ ['"'] : Source }
        let inner ← double fuel
        set outer
        return some (.text inner)
    | '<' :: '&' :: _ =>
      pass (digits.length + 2)
      let _ ← target fuel
      return some (.text [])
    | '<' :: _ =>
      pass (digits.length + 1)
      return some (.input (← target fuel))
    | _ => return none

/-- Read the word of a redirection, which may not be missing. -/
def target : (fuel : Nat) → Reader Word
  | 0 => fail (.endOfFile [])
  | fuel + 1 => do
    skipBlank fuel
    let found ← word fuel
    if found.isEmpty then failHere "" else return found

/-- Read a command made of words, or the definition of a function. -/
def simple : (fuel : Nat) → Reader Command
  | 0 => fail (.endOfFile [])
  | fuel + 1 => do
    let line := (← get).line
    let (assignments, words, redirects) ← simpleParts false fuel
    if assignments.isEmpty && words.isEmpty && redirects.isEmpty then
      failHere ""
    match words, ← rest with
    | [[.plain name]], '(' :: text =>
      if (text.dropWhile isBlankChar).head? == some ')' && assignments.isEmpty then
        pass (text.length + 2 - (text.dropWhile isBlankChar).length)
        skipLines fuel
        let body ← command fuel
        return .define name body
      else if assignments.isEmpty then do pass 1; skipBlank fuel; failHere ")"
      else failHere ""
    | _, '(' :: _ => failHere ""
    | _, _ =>
      let command := Command.simple line assignments words
      return if redirects.isEmpty then command else .redirected command redirects

/-- Read assignments, words and redirections in any order; assignments come before the words. -/
def simpleParts (named : Bool) : (fuel : Nat) →
    Reader (List (List Char × Word) × List Word × List Redirect)
  | 0 => fail (.endOfFile [])
  | fuel + 1 => do
    skipBlank fuel
    match ← redirect? fuel with
    | some redirect =>
      let (assignments, words, redirects) ← simpleParts named fuel
      return (assignments, words, redirect :: redirects)
    | none =>
      match ← rest with
      | [] => return ([], [], [])
      | c :: _ =>
        if isMeta c then return ([], [], [])
        else
          let found ← word fuel
          match if named then none else assignment? found with
          | some assignment =>
            let (assignments, words, redirects) ← simpleParts false fuel
            return (assignment :: assignments, words, redirects)
          | none =>
            let (assignments, words, redirects) ← simpleParts true fuel
            return (assignments, found :: words, redirects)

end

/-- Read the commands of one line: a list that ends with the line. -/
def lineOf : (fuel : Nat) → Reader (List Command)
  | 0 => fail (.endOfFile [])
  | fuel + 1 => do
    let first ← chain fuel
    skipBlank fuel
    match ← rest with
    | [] => return [first]
    | '\n' :: _ => pass 1; return [first]
    | ';' :: ';' :: _ => failHere ""
    | c :: _ =>
      if c == ';' || c == '&' then
        pass 1
        skipBlank fuel
        match ← rest with
        | [] => return [first]
        | '\n' :: _ => pass 1; return [first]
        | _ => return first :: (← lineOf fuel)
      else failHere ""

/-- Read a script line by line, up to the first fault. -/
def lines : (fuel : Nat) → Source → List (List Command) × Option (SyntaxFault × Nat)
  | 0, _ => ([], none)
  | fuel + 1, source =>
    match (skipLines (source.rest.length + 1)).run source with
    | .error fault => ([], some (fault, source.line))
    | .ok (_, source) =>
      if source.rest.isEmpty then ([], none)
      else
        match (lineOf (20 * source.rest.length + 200)).run source with
        | .error fault => ([], some (fault, source.line))
        | .ok (commands, next) =>
          let (rest, fault) := lines fuel next
          (commands :: rest, fault)

end Reader

/-- Read a script: its lines before the first fault, and the fault with its line. -/
def read (script : List Char) : List (List Command) × Option (SyntaxFault × Nat) :=
  Reader.lines (script.length + 1) ⟨script, 1⟩

end TabSpec.Script
