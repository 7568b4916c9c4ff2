import TabSpec.Yaml.Token

/-! A place in a text that is read from left to right, with its line and column. -/
namespace TabSpec.Yaml

structure Cursor where
  rest : List Char
  index : Nat
  line : Nat
  column : Nat
deriving Repr, Inhabited

namespace Cursor

/-- Pass one character. -/
def skip (cursor : Cursor) : Cursor :=
  { cursor with rest := cursor.rest.drop 1, index := cursor.index + 1, column := cursor.column + 1 }

/-- Pass some characters of one line. -/
def skipMany (cursor : Cursor) (count : Nat) : Cursor :=
  { cursor with
    rest := cursor.rest.drop count, index := cursor.index + count, column := cursor.column + count }

/-- Pass a line break; the break that a scalar keeps for it comes first. -/
def skipLine (cursor : Cursor) : List Char × Cursor :=
  let next (kept : List Char) (count : Nat) :=
    (kept, { rest := cursor.rest.drop count, index := cursor.index + count,
             line := cursor.line + 1, column := 0 : Cursor })
  match cursor.rest with
  | '\r' :: '\n' :: _ => next ['\n'] 2
  | '\u2028' :: _ => next ['\u2028'] 1
  | '\u2029' :: _ => next ['\u2029'] 1
  | c :: _ => if isLineBreak c then next ['\n'] 1 else ([], cursor)
  | [] => ([], cursor)

/-- Pass the characters of one line that satisfy a test. -/
def skipWhile (cursor : Cursor) (test : Char → Bool) : List Char × Cursor :=
  let taken := cursor.rest.takeWhile test
  (taken, cursor.skipMany taken.length)

/-- Whether `---` or `...` stands alone at the start of this line. -/
def atDocumentMark (cursor : Cursor) : Bool :=
  cursor.column == 0 &&
    match cursor.rest with
    | '-' :: '-' :: '-' :: rest => atBlank rest
    | '.' :: '.' :: '.' :: rest => atBlank rest
    | _ => false

/-- A bound on the steps of any reading that passes a character each time. -/
def fuel (cursor : Cursor) : Nat := cursor.rest.length + 1

end Cursor
end TabSpec.Yaml
