import TabSpec.Script.Pattern
import TabSpec.Script.Session

/-! Fields: the words that come out of an expansion. Results of unquoted expansions are split at
separators, and a field that is a pattern becomes the paths that match it. -/
namespace TabSpec.Script

/-- A part of an expanded word. -/
inductive Bit
  | mark (mark : Mark)
  /-- A character from an unquoted expansion. -/
  | soft (c : Char)
  /-- Quotes, which make a field even around nothing. -/
  | anchor
  /-- The boundary between two arguments. -/
  | cut
  /-- All arguments, where there are none. -/
  | absent
deriving Repr, DecidableEq, Inhabited

namespace Bit

def quoted (text : List Char) : List Bit := .anchor :: (marks true text).map .mark

/-- The result of an expansion. -/
def result (isQuoted : Bool) (text : List Char) : List Bit :=
  if isQuoted then quoted text else text.map .soft

/-- Plain characters inside an unquoted expansion are split like its results. -/
def soften : Bit → Bit
  | .mark ⟨c, false⟩ => .soft c
  | bit => bit

/-- The characters of a word that is not split. -/
def joined (bits : List Bit) : List Mark :=
  bits.filterMap fun bit => match bit with
    | .mark char => some char
    | .soft c => some ⟨c, false⟩
    | .cut => some ⟨' ', true⟩
    | .anchor => none
    | .absent => none

end Bit

/-- The state of splitting: complete fields, the last first, and the current one, reversed. -/
structure Splitting where
  complete : List (List Mark)
  current : List Mark
  isOpen : Bool
  /-- Whether a blank has just ended a field, so that a separator belongs to it. -/
  afterBlank : Bool
deriving Inhabited

namespace Splitting

def close (state : Splitting) : Splitting :=
  if state.isOpen then ⟨state.current.reverse :: state.complete, [], false, false⟩
  else { state with afterBlank := false }

def push (mark : Mark) (state : Splitting) : Splitting :=
  { state with current := mark :: state.current, isOpen := true, afterBlank := false }

def step (separators : List Char) (state : Splitting) : Bit → Splitting
  | .mark mark => state.push mark
  | .soft c =>
    if !separators.contains c then state.push ⟨c, false⟩
    else if c == ' ' || c == '\t' || c == '\n' then
      { state.close with afterBlank := state.isOpen || state.afterBlank }
    else if state.afterBlank then { state with afterBlank := false }
    else { state with isOpen := true }.close
  | .anchor => { state with isOpen := true, afterBlank := false }
  | .cut => state.close
  | .absent => state

end Splitting

/-- Split an expanded word into fields. -/
def fields (separators : List Char) (bits : List Bit) : List (List Mark) :=
  let final := (bits.foldl (Splitting.step separators) ⟨[], [], false, false⟩).close
  let found := final.complete.reverse
  if bits.contains .absent && found == [[]] then [] else found

namespace Session

/-- Extend paths by the names that match the next part of a pattern. -/
private def extendPaths (session : Session) (paths : List (List Char)) (part : List Mark) :
    List (List Char) :=
  paths.flatMap fun path =>
    if !isPattern part then [path ++ unmark part]
    else
      let directory := if path.isEmpty then session.directory else session.path path
      match session.files.list directory with
      | .error _ => []
      | .ok names =>
        let hidden := (part.head?.map (·.char)) == some '.'
        let names := (names.map Text.toOctets).filter fun name =>
          (hidden || name.head? != some '.') && matchesPattern part name
        names.map (path ++ ·)

/-- The paths that match a field, or the field itself. -/
def pathsOf (session : Session) (field : List Mark) : List (List Char) :=
  if !session.findsPaths || !isPattern field then [unmark field]
  else
    let found := match field.splitOnP (·.char == '/') with
      | [] => []
      | first :: parts =>
        parts.foldl (fun paths part => session.extendPaths (paths.map (· ++ ['/'])) part)
          (session.extendPaths [[]] first)
    let found := found.filter fun path => session.files.exists? (session.path path)
    if found.isEmpty then [unmark field] else found

end Session
end TabSpec.Script
