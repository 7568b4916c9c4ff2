import TabSpec.Fault
import TabSpec.Flag.Basic
import TabSpec.Text.Digit

/-! Flag identifiers: a shorthand, a longhand, modifiers and a number of arguments, written as in
`-s, --long=*{2}`. -/
namespace TabSpec.Flag

/-- Characters that end a form of a flag. -/
def endsForm (c : Char) : Bool := " =*?&!\x7b\x7d".toList.contains c

def isModifier (c : Char) : Bool := "=*?&!".toList.contains c

/-- The parts of an identifier behind its shorthand. -/
structure Tail where
  longhand : List Char
  modifiers : List Char
  nargs : Option (List Char)
deriving Repr, DecidableEq

/-- The digits between braces, if that is all the text. -/
def nargsOf? : List Char → Option (Option (List Char))
  | [] => some none
  | '\x7b' :: body =>
    if body.getLast? = some '\x7d' then
      let number := body.dropLast
      let digits := match number with
        | '-' :: digits => digits
        | digits => digits
      if !digits.isEmpty && digits.all Text.isDecimalDigit then some (some number) else none
    else none
  | _ => none

/-- Read what stands behind the shorthand. Every part is as long as it can be, and no shorter part
could be followed by the next one. -/
def Tail.ofText? (text : List Char) : Option Tail :=
  let text := match text with
    | ',' :: ' ' :: rest => rest
    | _ => text
  let (longhand, rest) := match text with
    | '-' :: rest => ('-' :: rest.takeWhile (!endsForm ·), rest.dropWhile (!endsForm ·))
    | _ => ([], text)
  let modifiers := rest.takeWhile isModifier
  (nargsOf? (rest.dropWhile isModifier)).map fun nargs => ⟨longhand, modifiers, nargs⟩

/-- The ways to cut a run in two, the longest first part first. -/
def cuts (run : List Char) : List (List Char × List Char) :=
  ((List.range (run.length + 1)).reverse).map fun count => (run.take count, run.drop count)

/-- The shorthands that a text may begin with, each with what stands behind it, the longest first;
at last none at all. -/
def shorthands : List Char → List (List Char × List Char)
  | '-' :: c :: rest =>
    if c = '-' then [([], '-' :: c :: rest)]
    else
      let run := rest.takeWhile (!endsForm ·)
      let behind := rest.dropWhile (!endsForm ·)
      (cuts run).map (fun (front, back) => ('-' :: c :: front, back ++ behind)) ++
        [([], '-' :: c :: rest)]
  | text => [([], text)]

/-- The shorthand and the parts behind it, with the longest shorthand that leaves valid parts. -/
def partsOf? (text : List Char) : Option (List Char × Tail) :=
  (shorthands text).findSome? fun (shorthand, rest) =>
    (Tail.ofText? rest).map fun tail => (shorthand, tail)

def dropDashes (form : List Char) : String := String.ofList (form.dropWhile (· == '-'))

/-- Read a flag identifier. -/
def parse (identifier description : String) : Except SpecFault Flag :=
  match partsOf? identifier.toList with
  | none => .error (.flag identifier .grammar)
  | some (shorthand, tail) =>
    let optionalArg := tail.modifiers.contains '?'
    let nargs : Except Text.IntegerFault Int := match tail.nargs with
      | none => .ok 0
      | some number => Text.readInteger (.signed 32) 10 number
    match nargs with
    | .error fault => .error (.flag identifier (.arity fault))
    | .ok nargs =>
      let flag : Flag := {
        shorthand := dropDashes shorthand
        longhand := dropDashes tail.longhand
        description
        nameAsShorthand := !tail.longhand.isEmpty && (tail.longhand.take 2 != ['-', '-'])
        repeatable := tail.modifiers.contains '*'
        optionalArg
        takesValue := optionalArg || tail.modifiers.contains '='
        hidden := tail.modifiers.contains '&'
        required := tail.modifiers.contains '!'
        nargs }
      if flag.longhand = "" ∧ flag.shorthand = "" then .error (.flag identifier .nameless)
      else .ok flag

/-- Write a flag as an identifier. -/
def format (flag : Flag) : String :=
  let forms := match flag.shortForm?, flag.longForm? with
    | some short, some long => short ++ ", " ++ long
    | some short, none => short
    | none, some long => long
    | none, none => ""
  forms ++
    (if flag.optionalArg then "?" else if flag.takesValue then "=" else "") ++
    (if flag.repeatable then "*" else "") ++
    (if flag.required then "!" else "") ++
    (if flag.hidden then "&" else "") ++
    (if flag.nargs = 0 then "" else "\x7b" ++ toString flag.nargs ++ "\x7d")

end TabSpec.Flag
