/-! Shell scripts as trees. All text is octets, each held as the character with its number. -/
namespace TabSpec.Script

mutual

/-- A piece of a word. -/
inductive Piece
  | plain (text : List Char)
  | quoted (text : List Char)
  | variable (name : List Char) (form : Form) (quoted : Bool)
  /-- What a script prints. -/
  | output (body : List Command) (quoted : Bool)
  | arithmetic (expression : List Piece) (quoted : Bool)

/-- What is asked of a variable. The Boolean says whether an empty value counts as unset. -/
inductive Form
  | value
  | length
  | fallback (orEmpty : Bool) (word : List Piece)
  | assign (orEmpty : Bool) (word : List Piece)
  | alternative (orEmpty : Bool) (word : List Piece)
  | demand (orEmpty : Bool) (word : List Piece)
  | trimFront (longest : Bool) (pattern : List Piece)
  | trimBack (longest : Bool) (pattern : List Piece)

/-- Where a command reads from or writes to. -/
inductive Redirect
  | input (target : List Piece)
  | text (body : List Piece)
  | output (descriptor : Nat) (append : Bool) (target : List Piece)
  | copy (descriptor : Nat) (source : List Piece)

inductive Command
  | simple (line : Nat) (assignments : List (List Char × List Piece)) (words : List (List Piece))
  | group (body : List Command)
  | subshell (body : List Command)
  | branch (arms : List (List Command × List Command)) (otherwise : List Command)
  | loop (untilTrue : Bool) (condition body : List Command)
  | each (name : List Char) (words : Option (List (List Piece))) (body : List Command)
  | select (word : List Piece) (arms : List (List (List Piece) × List Command))
  | define (name : List Char) (body : Command)
  | redirected (command : Command) (redirects : List Redirect)
  | pipeline (negated : Bool) (stages : List Command)
  /-- The second command runs if the first one succeeds, or else if it fails. -/
  | chain (ifSuccess : Bool) (first second : Command)

end

instance : Inhabited Command := ⟨.group []⟩

abbrev Word := List Piece

/-- Why a text is no script. A fault may name the token that was expected instead. -/
inductive SyntaxFault
  | unterminatedQuote
  | openBackQuote
  | missing (closer : List Char)
  | endOfFile (expected : List Char)
  | unexpected (token expected : List Char)
  | unexpectedWord (expected : List Char)
  | loopVariable
  | badSubstitution
deriving Repr, DecidableEq

private def expectation (expected : List Char) : List Char :=
  if expected.isEmpty then [] else " (expecting \"".toList ++ expected ++ "\")".toList

def SyntaxFault.message : SyntaxFault → List Char
  | .unterminatedQuote => "Syntax error: Unterminated quoted string".toList
  | .openBackQuote => "Syntax error: EOF in backquote substitution".toList
  | .missing closer => "Syntax error: Missing '".toList ++ closer ++ ['\'']
  | .endOfFile expected =>
    "Syntax error: end of file unexpected".toList ++ expectation expected
  | .unexpected ['\n'] expected =>
    "Syntax error: newline unexpected".toList ++ expectation expected
  | .unexpected token expected =>
    "Syntax error: \"".toList ++ token ++ "\" unexpected".toList ++ expectation expected
  | .unexpectedWord expected => "Syntax error: word unexpected".toList ++ expectation expected
  | .loopVariable => "Syntax error: Bad for loop variable".toList
  | .badSubstitution => "Bad substitution".toList

end TabSpec.Script
