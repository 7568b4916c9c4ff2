import TabSpec.Text.WordChar

/-! Regular expressions, and whether one matches somewhere in a text. -/
namespace TabSpec

/-- What may be asked of a place between two characters. Words are those of ASCII alone, or of all
scripts. -/
inductive Regex.Place
  | textStart
  | textEnd
  | lineStart
  | lineEnd
  /-- The start and the end of lines that a carriage return may end, too. -/
  | returnedLineStart
  | returnedLineEnd
  | wordEdge (ascii : Bool)
  | insideWord (ascii : Bool)
  | wordStart (ascii : Bool)
  | wordEnd (ascii : Bool)
  /-- No word goes on before or behind the place. -/
  | noWordBefore (ascii : Bool)
  | noWordBehind (ascii : Bool)
deriving Repr, DecidableEq

inductive Regex
  | empty
  | one (accepts : Char → Bool)
  | place (asked : Regex.Place)
  | sequence (first second : Regex)
  | choice (first second : Regex)
  | repeated (least : Nat) (most : Option Nat) (body : Regex)
  | named (name : List Char) (body : Regex)

namespace Regex

/-- A place in a text: the character before it and the text behind it. -/
structure Spot where
  before : Option Char
  rest : List Char
deriving Repr, DecidableEq

namespace Spot

def inWord (ascii : Bool) : Option Char → Bool
  | some c => if ascii then Text.isAsciiWordChar c else Text.isWordChar c
  | none => false

def wordBefore (ascii : Bool) (spot : Spot) : Bool := inWord ascii spot.before

def wordBehind (ascii : Bool) (spot : Spot) : Bool := inWord ascii spot.rest.head?

def holds (spot : Spot) : Place → Bool
  | .textStart => spot.before.isNone
  | .textEnd => spot.rest.isEmpty
  | .lineStart => spot.before.all (· == '\n')
  | .lineEnd => spot.rest.head?.all (· == '\n')
  | .returnedLineStart =>
    spot.before.all (· == '\n') || (spot.before == some '\r' && spot.rest.head? != some '\n')
  | .returnedLineEnd =>
    spot.rest.head?.all (· == '\r') || (spot.rest.head? == some '\n' && spot.before != some '\r')
  | .wordEdge ascii => spot.wordBefore ascii != spot.wordBehind ascii
  | .insideWord ascii => spot.wordBefore ascii == spot.wordBehind ascii
  | .wordStart ascii => !spot.wordBefore ascii && spot.wordBehind ascii
  | .wordEnd ascii => spot.wordBefore ascii && !spot.wordBehind ascii
  | .noWordBefore ascii => !spot.wordBefore ascii
  | .noWordBehind ascii => !spot.wordBehind ascii

end Spot

/-- Spots without repetition. -/
def distinct (spots : List Spot) : List Spot :=
  spots.foldl (fun seen spot => if seen.contains spot then seen else seen ++ [spot]) []

/-- Spots that are reached by up to `most` further steps, together with those at hand. -/
def closure (step : Spot → List Spot) : (most : Nat) → List Spot → List Spot
  | 0, spots => spots
  | most + 1, spots =>
    let further := distinct (spots ++ spots.flatMap step)
    if further.length = spots.length then spots else closure step most further

/-- Spots that are reached by exactly `count` steps. -/
def steps (step : Spot → List Spot) : (count : Nat) → List Spot → List Spot
  | 0, spots => spots
  | count + 1, spots => steps step count (distinct (spots.flatMap step))

/-- Where a match may end that begins at a spot. -/
def ends : Regex → Spot → List Spot
  | .empty, spot => [spot]
  | .one accepts, spot =>
    match spot.rest with
    | [] => []
    | c :: rest => if accepts c then [⟨some c, rest⟩] else []
  | .place asked, spot => if spot.holds asked then [spot] else []
  | .sequence first second, spot => distinct ((ends first spot).flatMap (ends second))
  | .choice first second, spot => distinct (ends first spot ++ ends second spot)
  | .repeated least most body, spot =>
    let further := match most with
      | some most => most - least
      | none => spot.rest.length + 1
    closure (ends body) further (steps (ends body) least [spot])
  | .named _ body, spot => ends body spot

/-- The names of groups. -/
def names : Regex → List (List Char)
  | .sequence first second => names first ++ names second
  | .choice first second => names first ++ names second
  | .repeated _ _ body => names body
  | .named name body => name :: names body
  | _ => []

/-- How large a regular expression is when repetitions are written out. -/
def size : Regex → Nat
  | .sequence first second => size first + size second
  | .choice first second => size first + size second + 1
  | .repeated least most body => max 1 (most.getD (least + 1)) * size body + 1
  | .named _ body => size body
  | _ => 1

/-- Whether a match begins at one of the spots of a text. -/
def matchesFrom (regex : Regex) : (before : Option Char) → List Char → Bool
  | before, [] => !(regex.ends ⟨before, []⟩).isEmpty
  | before, c :: rest =>
    !(regex.ends ⟨before, c :: rest⟩).isEmpty || matchesFrom regex (some c) rest

/-- Whether a regular expression matches somewhere in a text. -/
def isMatch (regex : Regex) (text : String) : Bool := regex.matchesFrom none text.toList

end Regex
end TabSpec
