/-! Patterns of a shell: a star for any text, a question mark for any character, brackets for one of
several. Quoted characters stand for themselves. -/
namespace TabSpec.Script

/-- A character of an expanded word, and whether it was quoted. -/
structure Mark where
  char : Char
  quoted : Bool
deriving Repr, DecidableEq, Inhabited

def marks (quoted : Bool) (text : List Char) : List Mark := text.map (⟨·, quoted⟩)

def unmark (word : List Mark) : List Char := word.map (·.char)

inductive Atom
  | any
  | one
  | literal (c : Char)
  | oneOf (negated : Bool) (ranges : List (Char × Char))
deriving Repr, DecidableEq

/-- Named classes inside brackets. -/
private def classRanges? (name : List Char) : Option (List (Char × Char)) :=
  match String.ofList name with
  | "alpha" => some [('a', 'z'), ('A', 'Z')]
  | "digit" => some [('0', '9')]
  | "alnum" => some [('a', 'z'), ('A', 'Z'), ('0', '9')]
  | "upper" => some [('A', 'Z')]
  | "lower" => some [('a', 'z')]
  | "space" => some [('\t', '\r'), (' ', ' ')]
  | "blank" => some [('\t', '\t'), (' ', ' ')]
  | "punct" => some [('!', '/'), (':', '@'), ('[', '`'), ('\x7b', '~')]
  | "xdigit" => some [('0', '9'), ('a', 'f'), ('A', 'F')]
  | _ => none

/-- Read the ranges of a bracket up to its end. -/
private def readRanges (first : Bool) : (fuel : Nat) → List Mark →
    Option (List (Char × Char) × List Mark)
  | 0, _ => none
  | _ + 1, [] => none
  | fuel + 1, mark :: rest =>
    if mark.char == ']' && !mark.quoted && !first then some ([], rest)
    else
      match mark.char, rest with
      | '[', colon :: text =>
        let name := text.takeWhile (·.char.isAlpha)
        match colon.char, text.drop name.length with
        | ':', ⟨':', _⟩ :: ⟨']', _⟩ :: after =>
          match classRanges? (unmark name), readRanges false fuel after with
          | some ranges, some (more, rest) => some (ranges ++ more, rest)
          | _, _ => none
        | _, _ => (readRanges false fuel rest).map fun (more, rest) => (('[', '[') :: more, rest)
      | c, dash :: last :: after =>
        if dash.char == '-' && !dash.quoted && !(last.char == ']' && !last.quoted) then
          (readRanges false fuel after).map fun (more, rest) => ((c, last.char) :: more, rest)
        else (readRanges false fuel rest).map fun (more, rest) => ((c, c) :: more, rest)
      | c, _ => (readRanges false fuel rest).map fun (more, rest) => ((c, c) :: more, rest)

/-- Read a pattern. -/
def atoms : (fuel : Nat) → List Mark → List Atom
  | 0, _ => []
  | _ + 1, [] => []
  | fuel + 1, mark :: rest =>
    if mark.quoted then .literal mark.char :: atoms fuel rest
    else
      match mark.char with
      | '*' => .any :: atoms fuel rest
      | '?' => .one :: atoms fuel rest
      | '[' =>
        let (negated, body) := match rest with
          | ⟨'!', false⟩ :: body => (true, body)
          | ⟨'^', false⟩ :: body => (true, body)
          | body => (false, body)
        match readRanges true fuel body with
        | some (ranges, after) => .oneOf negated ranges :: atoms fuel after
        | none => .literal '[' :: atoms fuel rest
      | c => .literal c :: atoms fuel rest

def Atom.accepts (c : Char) : Atom → Bool
  | .any => true
  | .one => true
  | .literal d => c == d
  | .oneOf negated ranges =>
    negated != ranges.any fun (first, last) => first ≤ c && c ≤ last

/-- Whether a text matches a pattern as a whole. -/
def matchesAtoms : List Atom → List Char → Bool
  | [], text => text.isEmpty
  | .any :: atoms, text =>
    (List.range (text.length + 1)).any fun count => matchesAtoms atoms (text.drop count)
  | _ :: _, [] => false
  | atom :: atoms, c :: text => atom.accepts c && matchesAtoms atoms text

def matchesPattern (pattern : List Mark) (text : List Char) : Bool :=
  matchesAtoms (atoms (pattern.length + 1) pattern) text

/-- Whether an expanded word has characters that make it a pattern. -/
def isPattern (word : List Mark) : Bool :=
  word.any fun mark => !mark.quoted && (mark.char == '*' || mark.char == '?' || mark.char == '[')

/-- A text without the shortest or longest front that matches a pattern. -/
def trimFrontBy (longest : Bool) (pattern : List Mark) (text : List Char) : List Char :=
  let sizes := List.range (text.length + 1)
  let sizes := if longest then sizes.reverse else sizes
  match sizes.find? fun size => matchesPattern pattern (text.take size) with
  | some size => text.drop size
  | none => text

/-- A text without the shortest or longest end that matches a pattern. -/
def trimBackBy (longest : Bool) (pattern : List Mark) (text : List Char) : List Char :=
  let sizes := List.range (text.length + 1)
  let sizes := if longest then sizes else sizes.reverse
  match sizes.find? fun size => matchesPattern pattern (text.drop size) with
  | some size => text.take size
  | none => text

end TabSpec.Script
