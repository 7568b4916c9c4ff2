/-! The words of a command line that is still being typed, with their places. Quotations may stay
open, since the last word is the one under the cursor. -/
namespace TabSpec

/-- A word, or an operator between commands. -/
inductive TokenKind
  | word
  | operator
deriving Repr, DecidableEq

structure WordToken where
  kind : TokenKind
  /-- The text without its quotation. -/
  text : List Char
  /-- How many characters stand before it. -/
  start : Nat
  /-- The quote that opens it. -/
  quote : Option Char
deriving Repr, DecidableEq

namespace WordToken

def emptyWord (start : Nat) : WordToken := ⟨.word, [], start, none⟩

/-- Put a character at the end of the current word, which begins here unless it began before. -/
def push (current : Option WordToken) (start : Nat) (c : Char) : WordToken :=
  let word := current.getD (emptyWord start)
  { word with text := word.text ++ [c] }

/-- Open a quotation; a word keeps the quote with which it begins. -/
def openQuote (current : Option WordToken) (start : Nat) (quote : Char) : WordToken :=
  let word := current.getD (emptyWord start)
  if word.text.isEmpty && word.quote.isNone then { word with quote := some quote } else word

def isSpace (c : Char) : Bool := c == ' ' || c == '\t' || c == '\n'

def isOperatorChar (c : Char) : Bool := c == '|' || c == '&' || c == ';'

/-- Read tokens from the place `start` on; the last one is the word under the cursor. -/
def scan : (start : Nat) → (current : Option WordToken) → (quote : Option Char) → List Char →
    List WordToken
  | start, current, _, [] => [current.getD (emptyWord start)]
  | start, current, some quote, c :: rest =>
    if c = quote then scan (start + 1) current none rest
    else if c = '\\' ∧ quote = '"' then
      match rest with
      | [] => scan (start + 1) current (some quote) []
      | next :: rest => scan (start + 2) (some (push current start next)) (some quote) rest
    else scan (start + 1) (some (push current start c)) (some quote) rest
  | start, current, none, c :: rest =>
    if isSpace c then current.toList ++ scan (start + 1) none none rest
    else if c = '\'' ∨ c = '"' then
      scan (start + 1) (some (openQuote current start c)) (some c) rest
    else if c = '\\' then
      match rest with
      | [] => scan (start + 1) current none []
      | next :: rest => scan (start + 2) (some (push current start next)) none rest
    else if isOperatorChar c then
      match rest with
      | next :: after =>
        if c ≠ ';' ∧ next = c then
          current.toList ++ ⟨.operator, [c, c], start, none⟩ :: scan (start + 2) none none after
        else
          current.toList ++
            ⟨.operator, [c], start, none⟩ :: scan (start + 1) none none (next :: after)
      | [] => current.toList ++ ⟨.operator, [c], start, none⟩ :: scan (start + 1) none none []
    else scan (start + 1) (some (push current start c)) none rest

/-- The tokens of a command line. -/
def tokens (line : List Char) : List WordToken := scan 0 none none line

def isWord (token : WordToken) : Bool := token.kind = .word

/-- The tokens of the last command on the line. -/
def lastCommand (tokens : List WordToken) : List WordToken :=
  (tokens.reverse.takeWhile isWord).reverse

end WordToken
end TabSpec
