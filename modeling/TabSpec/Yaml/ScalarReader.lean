import TabSpec.Text.Integer
import TabSpec.Yaml.Cursor

/-! Reading the scalars of a YAML stream: quoted, plain and block scalars. Line breaks inside a scalar
are folded: a single one is a blank, of several all but the first are kept. -/
namespace TabSpec.Yaml

/-- What stands between two runs of visible characters. Once a line has ended, blanks count for
nothing. -/
structure Gap where
  blanks : List Char
  broken : Bool
  first : List Char
  further : List Char
deriving Inhabited

def Gap.none : Gap := ⟨[], false, [], []⟩

/-- The text that a gap leaves in a scalar. -/
def Gap.folded (gap : Gap) : List Char :=
  if gap.broken then
    if gap.first = ['\n'] then if gap.further.isEmpty then [' '] else gap.further
    else gap.first ++ gap.further
  else gap.blanks

/-- Pass blanks and line breaks. `indent` is the column before which no tab may stand on a further
line. -/
def readGap (indent : Nat) : (fuel : Nat) → Gap → Cursor → Option (Gap × Cursor)
  | 0, _, _ => none
  | fuel + 1, gap, cursor =>
    match cursor.rest with
    | [] => some (gap, cursor)
    | c :: _ =>
      if isSpaceOrTab c then
        if gap.broken && c == '\t' && cursor.column < indent then none
        else if gap.broken then readGap indent fuel gap cursor.skip
        else readGap indent fuel { gap with blanks := gap.blanks ++ [c] } cursor.skip
      else if isLineBreak c then
        let (kept, next) := cursor.skipLine
        if gap.broken then readGap indent fuel { gap with further := gap.further ++ kept } next
        else readGap indent fuel ⟨[], true, kept, []⟩ next
      else some (gap, cursor)

/-- The character of a short escape in a double-quoted scalar. -/
def shortEscape? (c : Char) : Option Char :=
  match c with
  | '0' => some '\x00'
  | 'a' => some '\x07'
  | 'b' => some '\x08'
  | 't' => some '\t'
  | '\t' => some '\t'
  | 'n' => some '\n'
  | 'v' => some '\x0b'
  | 'f' => some '\x0c'
  | 'r' => some '\r'
  | 'e' => some '\x1b'
  | ' ' => some ' '
  | '"' => some '"'
  | '/' => some '/'
  | '\\' => some '\\'
  | 'N' => some '\x85'
  | '_' => some '\xa0'
  | 'L' => some '\u2028'
  | 'P' => some '\u2029'
  | _ => none

/-- How many hexadecimal digits follow an escape letter. -/
def escapeLength? (c : Char) : Option Nat :=
  match c with
  | 'x' => some 2
  | 'u' => some 4
  | 'U' => some 8
  | _ => none

def hexValue? (digits : List Char) : Option Nat :=
  digits.foldlM (fun value c => (Text.digitValue? 16 c).map (value * 16 + ·)) 0

/-- Read an escape behind its backslash. -/
def readEscape (cursor : Cursor) : Option (Char × Cursor) :=
  match cursor.rest with
  | [] => none
  | c :: rest =>
    match shortEscape? c with
    | some c => some (c, cursor.skip)
    | none => do
      let length ← escapeLength? c
      let digits := rest.take length
      guard (digits.length = length)
      let value ← hexValue? digits
      guard (¬ (0xd800 ≤ value ∧ value < 0xe000) ∧ value ≤ 0x10ffff)
      return (Char.ofNat value, cursor.skipMany (length + 1))

/-- Read a quoted scalar behind its opening quote. -/
def readQuoted (single : Bool) : (fuel : Nat) → List Char → Cursor → Option (List Char × Cursor)
  | 0, _, _ => none
  | fuel + 1, text, cursor =>
    if cursor.atDocumentMark then none
    else
      match cursor.rest with
      | [] => none
      | c :: rest =>
        if single && c == '\'' then
          match rest with
          | '\'' :: _ => readQuoted single fuel (text ++ ['\'']) (cursor.skipMany 2)
          | _ => some (text, cursor.skip)
        else if !single && c == '"' then some (text, cursor.skip)
        else if !single && c == '\\' then
          match rest with
          | [] => none
          | d :: _ =>
            if isLineBreak d then do
              let (_, next) := cursor.skip.skipLine
              let (gap, next) ← readGap 0 next.fuel ⟨[], true, [], []⟩ next
              readQuoted single fuel (text ++ gap.folded) next
            else do
              let (c, next) ← readEscape cursor.skip
              readQuoted single fuel (text ++ [c]) next
        else if isSpaceOrTab c || isLineBreak c then do
          let (gap, next) ← readGap 0 cursor.fuel Gap.none cursor
          readQuoted single fuel (text ++ gap.folded) next
        else readQuoted single fuel (text ++ [c]) cursor.skip

/-- Whether a plain scalar ends at this visible character. -/
def endsPlain (inFlow : Bool) : List Char → Bool
  | [] => true
  | c :: rest =>
    (c == ':' && atBlank rest) || (inFlow && (",[]\x7b\x7d".toList.contains c))

/-- Whether a colon stands before a flow indicator, which no flow scalar may hold. -/
def strayColon (inFlow : Bool) : List Char → Bool
  | ':' :: c :: _ => inFlow && (",?[]\x7b\x7d".toList.contains c)
  | _ => false

/-- Read a run of visible characters of a plain scalar. -/
def readPlainRun (inFlow : Bool) : (fuel : Nat) → List Char → Cursor → Option (List Char × Cursor)
  | 0, _, _ => none
  | fuel + 1, run, cursor =>
    if atBlank cursor.rest then some (run.reverse, cursor)
    else if strayColon inFlow cursor.rest then none
    else if endsPlain inFlow cursor.rest then some (run.reverse, cursor)
    else
      match cursor.rest with
      | [] => some (run.reverse, cursor)
      | c :: _ => readPlainRun inFlow fuel (c :: run) cursor.skip

/-- Read a plain scalar whose further lines are indented to `indent` at least. The answer tells also
whether a line break followed it. -/
def readPlain (inFlow : Bool) (indent : Nat) :
    (fuel : Nat) → List Char → Gap → Cursor → Option (List Char × Bool × Cursor)
  | 0, _, _, _ => none
  | fuel + 1, text, gap, cursor =>
    if cursor.atDocumentMark then some (text, gap.broken, cursor)
    else if cursor.rest.head? == some '#' then some (text, gap.broken, cursor)
    else do
      let (run, next) ← readPlainRun inFlow cursor.fuel [] cursor
      let text := if run.isEmpty then text else text ++ gap.folded ++ run
      let gap := if run.isEmpty then gap else Gap.none
      match next.rest with
      | [] => return (text, gap.broken, next)
      | c :: _ =>
        if !(isSpaceOrTab c || isLineBreak c) then return (text, gap.broken, next)
        else
          let (gap, next) ← readGap indent next.fuel gap next
          if !inFlow && next.column < indent then return (text, gap.broken, next)
          else readPlain inFlow indent fuel text gap next

/-- What happens to the line breaks at the end of a block scalar. -/
inductive Chomping
  | strip
  | clip
  | keep
deriving DecidableEq

/-- Read the indicators behind `|` or `>`: chomping and an indentation. -/
def readBlockHeader (cursor : Cursor) : Option (Chomping × Option Nat × Cursor) :=
  let chomping? (c : Char) : Option Chomping :=
    if c = '+' then some .keep else if c = '-' then some .strip else none
  let digit? (c : Char) : Option Nat := if c.isDigit then some (c.toNat - 48) else none
  match cursor.rest with
  | c :: d :: _ =>
    match chomping? c, digit? c with
    | some chomping, _ =>
      match digit? d with
      | some 0 => none
      | some n => some (chomping, some n, cursor.skipMany 2)
      | none => some (chomping, none, cursor.skip)
    | none, some 0 => none
    | none, some n =>
      match chomping? d with
      | some chomping => some (chomping, some n, cursor.skipMany 2)
      | none => some (.clip, some n, cursor.skip)
    | none, none => some (.clip, none, cursor)
  | [c] =>
    match chomping? c, digit? c with
    | some chomping, _ => some (chomping, none, cursor.skip)
    | none, some 0 => none
    | none, some n => some (.clip, some n, cursor.skip)
    | none, none => some (.clip, none, cursor)
  | [] => some (.clip, none, cursor)

/-- Pass the empty lines of a block scalar. Without a known indentation the widest line decides it.
A tab may not stand where the indentation is. -/
def readBlockBreaks (indent : Option Nat) :
    (fuel widest : Nat) → List Char → Cursor → Option (Nat × List Char × Cursor)
  | 0, _, _, _ => none
  | fuel + 1, widest, breaks, cursor =>
    let within (column : Nat) : Bool := indent.all (column < ·)
    match cursor.rest with
    | [] => some (max widest cursor.column, breaks, cursor)
    | c :: _ =>
      if c == ' ' && within cursor.column then
        readBlockBreaks indent fuel widest breaks cursor.skip
      else if c == '\t' && within cursor.column then none
      else if isLineBreak c then
        let (kept, next) := cursor.skipLine
        readBlockBreaks indent fuel (max widest cursor.column) (breaks ++ kept) next
      else some (max widest cursor.column, breaks, cursor)

/-- Read the lines of a block scalar. -/
def readBlockLines (folds : Bool) (chomping : Chomping) (indent : Nat) :
    (fuel : Nat) → (text leading trailing : List Char) → (afterBlank : Bool) → Cursor →
      Option (List Char × Cursor)
  | 0, _, _, _, _, _ => none
  | fuel + 1, text, leading, trailing, afterBlank, cursor =>
    match cursor.rest with
    | c :: _ =>
      if cursor.column = indent then do
        let blank := isSpaceOrTab c
        let joint :=
          if folds && leading == ['\n'] && !afterBlank && !blank then
            if trailing.isEmpty then [' '] else trailing
          else leading ++ trailing
        let (line, next) := cursor.skipWhile (!isLineBreak ·)
        let (leading, next) := next.skipLine
        let (_, trailing, next) ← readBlockBreaks (some indent) next.fuel 0 [] next
        readBlockLines folds chomping indent fuel (text ++ joint ++ line) leading trailing blank next
      else some (chomp chomping text leading trailing, cursor)
    | [] => some (chomp chomping text leading trailing, cursor)
where
  chomp : Chomping → (text leading trailing : List Char) → List Char
    | .strip, text, _, _ => text
    | .clip, text, leading, _ => text ++ leading
    | .keep, text, leading, trailing => text ++ leading ++ trailing

/-- Read a block scalar behind its `|` or `>`; `parent` is the indentation of the block around it. -/
def readBlock (folds : Bool) (parent : Int) (cursor : Cursor) : Option (List Char × Cursor) := do
  let (chomping, increment, cursor) ← readBlockHeader cursor
  let (_, cursor) := cursor.skipWhile isSpaceOrTab
  let (_, cursor) :=
    if cursor.rest.head? == some '#' then cursor.skipWhile (!isLineBreak ·) else ([], cursor)
  guard (atLineEnd cursor.rest)
  let (_, cursor) := cursor.skipLine
  let known := increment.map fun n => if 0 ≤ parent then parent.toNat + n else n
  let (widest, trailing, cursor) ← readBlockBreaks known cursor.fuel 0 [] cursor
  let indent := known.getD (max widest (max (parent + 1).toNat 1))
  readBlockLines folds chomping indent cursor.fuel [] [] trailing false cursor

end TabSpec.Yaml
