import TabSpec.Yaml.ScalarReader
import TabSpec.Text.Octets

/-! From the text of a YAML stream to its tokens. Indentation opens and closes blocks, and a colon may
turn what stands before it on its line into a key after the fact. -/
namespace TabSpec.Yaml

/-- A place where a key may have started. A required one must turn out to be a key. -/
structure ImplicitKey where
  required : Bool
  /-- How many tokens stand before it. -/
  position : Nat
  index : Nat
  line : Nat
  column : Nat
deriving Repr, Inhabited

structure Lexer where
  cursor : Cursor
  tokens : Array Token
  /-- Column of the innermost block, or -1. -/
  indent : Int
  outerIndents : List Int
  flowLevel : Nat
  keyAllowed : Bool
  /-- The possible key of this flow level, and those of the levels around it. -/
  key : Option ImplicitKey
  outerKeys : List (Option ImplicitKey)
deriving Inhabited

namespace Lexer

def start (text : List Char) : Lexer where
  cursor := ⟨text, 0, 0, 0⟩
  tokens := #[]
  indent := -1
  outerIndents := []
  flowLevel := 0
  keyAllowed := true
  key := none
  outerKeys := []

def push (lexer : Lexer) (token : Token) : Lexer :=
  { lexer with tokens := lexer.tokens.push token }

/-- Append a token of one character. -/
def pushChar (lexer : Lexer) (token : Token) : Lexer :=
  { lexer with tokens := lexer.tokens.push token, cursor := lexer.cursor.skip }

def inFlow (lexer : Lexer) : Bool := lexer.flowLevel != 0

/-- Close the blocks that are indented further than `column`. -/
def closeBlocks (column : Int) (lexer : Lexer) : Lexer :=
  if lexer.inFlow then lexer
  else go lexer.outerIndents lexer.indent lexer.tokens
where
  go : List Int → Int → Array Token → Lexer
    | [], indent, tokens => { lexer with indent, outerIndents := [], tokens }
    | outer :: rest, indent, tokens =>
      if column < indent then go rest outer (tokens.push .blockEnd)
      else { lexer with indent, outerIndents := outer :: rest, tokens }

/-- Open a block at `column`, unless one is open there; its token goes to `position`. -/
def openBlock (column position : Nat) (token : Token) (lexer : Lexer) : Lexer :=
  if lexer.inFlow || decide ((column : Int) ≤ lexer.indent) then lexer
  else
    { lexer with
      indent := column
      outerIndents := lexer.indent :: lexer.outerIndents
      tokens := lexer.tokens.insertIdxIfInBounds position token }

/-- Give up the possible key of this level. -/
def dropKey (lexer : Lexer) : Option Lexer :=
  match lexer.key with
  | some key => if key.required then none else some { lexer with key := none }
  | none => some lexer

/-- Note that a key may start here. -/
def saveKey (lexer : Lexer) : Option Lexer :=
  if lexer.keyAllowed then do
    let lexer ← lexer.dropKey
    let cursor := lexer.cursor
    return { lexer with
      key := some ⟨!lexer.inFlow && lexer.indent == cursor.column, lexer.tokens.size, cursor.index,
        cursor.line, cursor.column⟩ }
  else some lexer

private def isStale (cursor : Cursor) (key : ImplicitKey) : Bool :=
  key.line < cursor.line || key.index + 1024 < cursor.index

private def keepFresh (cursor : Cursor) : Option ImplicitKey → Option (Option ImplicitKey)
  | some key =>
    if isStale cursor key then if key.required then none else some none else some (some key)
  | none => some none

/-- Drop possible keys that lie on an earlier line or too far back. -/
def dropStaleKeys (lexer : Lexer) : Option Lexer := do
  let key ← keepFresh lexer.cursor lexer.key
  let outerKeys ← lexer.outerKeys.mapM (keepFresh lexer.cursor)
  return { lexer with key, outerKeys }

/-- Pass blanks, comments and line breaks. -/
def skipBlank : (fuel : Nat) → Lexer → Lexer
  | 0, lexer => lexer
  | fuel + 1, lexer =>
    let cursor := lexer.cursor
    match cursor.rest with
    | [] => lexer
    | c :: _ =>
      if c == '\ufeff' && cursor.column == 0 then skipBlank fuel { lexer with cursor := cursor.skip }
      else if c == ' ' || (c == '\t' && (lexer.inFlow || !lexer.keyAllowed)) then
        skipBlank fuel { lexer with cursor := cursor.skip }
      else if c == '#' then
        skipBlank fuel { lexer with cursor := (cursor.skipWhile (!isLineBreak ·)).2 }
      else if isLineBreak c then
        let next := cursor.skipLine.2
        skipBlank fuel { lexer with cursor := next, keyAllowed := lexer.keyAllowed || !lexer.inFlow }
      else lexer

/-- Read octets written as `%XX` that make up one character. -/
private def readUriEscapes : (fuel : Nat) → List Char → Cursor → Option (Char × Cursor)
  | 0, _, _ => none
  | fuel + 1, octets, cursor =>
    match cursor.rest with
    | '%' :: a :: b :: _ => do
      let a ← Text.digitValue? 16 a
      let b ← Text.digitValue? 16 b
      let octets := octets ++ [Char.ofNat (a * 16 + b)]
      let next := cursor.skipMany 3
      match Text.readOctets none octets with
      | [some c] => return (c, next)
      | [none] => if octets.length < 4 then readUriEscapes fuel octets next else none
      | _ => none
    | _ => none

/-- Read the characters of a tag. Flow indicators belong to it only where `wide` allows them. -/
private def readUri (wide : Bool) : (fuel : Nat) → List Char → Cursor → Option (List Char × Cursor)
  | 0, _, _ => none
  | fuel + 1, text, cursor =>
    match cursor.rest with
    | [] => some (text, cursor)
    | c :: _ =>
      if c == '%' then do
        let (c, next) ← readUriEscapes 4 [] cursor
        readUri wide fuel (text ++ [c]) next
      else if isWordChar c || ";/?:@&=+$.!~*'()".toList.contains c ||
          (wide && ",[]".toList.contains c) then
        readUri wide fuel (text ++ [c]) cursor.skip
      else some (text, cursor)

/-- Read `!`, `!word` or `!word!`. -/
private def readHandle (cursor : Cursor) : Option (List Char × Cursor) :=
  match cursor.rest with
  | '!' :: _ =>
    let (word, next) := cursor.skip.skipWhile isWordChar
    match next.rest with
    | '!' :: _ => some ('!' :: word ++ ['!'], next.skip)
    | _ => some ('!' :: word, next)
  | _ => none

private def isFullHandle (handle : List Char) : Bool :=
  handle.length > 1 && handle.getLast? == some '!'

/-- Read a tag. -/
def readTag (cursor : Cursor) : Option (TagName × Cursor) :=
  match cursor.rest with
  | '!' :: '<' :: _ => do
    let start := cursor.skipMany 2
    let (suffix, next) ← readUri true start.fuel [] start
    guard !suffix.isEmpty
    guard (next.rest.head? == some '>')
    return (⟨"", String.ofList suffix⟩, next.skip)
  | _ => do
    let (handle, next) ← readHandle cursor
    if isFullHandle handle then
      let (suffix, next) ← readUri false next.fuel [] next
      guard !suffix.isEmpty
      return (⟨String.ofList handle, String.ofList suffix⟩, next)
    else
      let (suffix, next) ← readUri false next.fuel (handle.drop 1) next
      if suffix.isEmpty then return (⟨"", "!"⟩, next)
      else return (⟨"!", String.ofList suffix⟩, next)

/-- Read a directive behind its `%`. -/
def readDirective (cursor : Cursor) : Option (Token × Cursor) := do
  let (name, cursor) := cursor.skipWhile isWordChar
  guard (!name.isEmpty && atBlank cursor.rest)
  let (_, cursor) := cursor.skipWhile isSpaceOrTab
  let (token, cursor) ← body (String.ofList name) cursor
  let (_, cursor) := cursor.skipWhile isSpaceOrTab
  let (_, cursor) :=
    if cursor.rest.head? == some '#' then cursor.skipWhile (!isLineBreak ·) else ([], cursor)
  guard (atLineEnd cursor.rest)
  return (token, cursor.skipLine.2)
where
  number (cursor : Cursor) : Option (Nat × Cursor) := do
    let (digits, next) := cursor.skipWhile Char.isDigit
    guard (!digits.isEmpty && digits.length ≤ 9)
    return (digits.foldl (fun value c => value * 10 + (c.toNat - 48)) 0, next)
  body (name : String) (cursor : Cursor) : Option (Token × Cursor) :=
    if name = "YAML" then do
      let (major, next) ← number cursor
      guard (next.rest.head? == some '.')
      let (minor, next) ← number next.skip
      return (.versionDirective major minor, next)
    else if name = "TAG" then do
      let (handle, next) ← readHandle cursor
      guard (isFullHandle handle || handle == ['!'])
      guard (!next.rest.isEmpty && next.rest.head?.any isSpaceOrTab)
      let (_, next) := next.skipWhile isSpaceOrTab
      let (front, next) ← readUri true next.fuel [] next
      guard (!front.isEmpty && atBlank next.rest)
      return (.tagDirective (String.ofList handle) (String.ofList front), next)
    else none

/-- Close every block and give up the possible key before something that stands for itself. -/
private def leaveBlocks (lexer : Lexer) : Option Lexer := do
  let lexer ← (lexer.closeBlocks (-1)).dropKey
  return { lexer with keyAllowed := false }

/-- Read an anchor or alias behind its indicator. -/
private def readName (cursor : Cursor) : Option (String × Cursor) := do
  let (name, next) := cursor.skip.skipWhile isWordChar
  guard (!name.isEmpty)
  guard (atBlank next.rest || next.rest.head?.any ("?:,]\x7d%@`".toList.contains ·))
  return (String.ofList name, next)

private def openFlow (token : Token) (lexer : Lexer) : Option Lexer := do
  let lexer ← lexer.saveKey
  let lexer := { lexer with
    outerKeys := lexer.key :: lexer.outerKeys
    key := none
    flowLevel := lexer.flowLevel + 1
    keyAllowed := true }
  return lexer.pushChar token

private def closeFlow (token : Token) (lexer : Lexer) : Option Lexer := do
  let lexer ← lexer.dropKey
  let lexer := { lexer with
    key := (lexer.outerKeys.head?).join
    outerKeys := lexer.outerKeys.drop 1
    flowLevel := lexer.flowLevel - 1
    keyAllowed := false }
  return lexer.pushChar token

private def blockEntry (lexer : Lexer) : Option Lexer := do
  guard (lexer.inFlow || lexer.keyAllowed)
  let lexer := lexer.openBlock lexer.cursor.column lexer.tokens.size .blockSequenceStart
  let lexer ← lexer.dropKey
  return { lexer with keyAllowed := true }.pushChar .blockEntry

private def explicitKey (lexer : Lexer) : Option Lexer := do
  guard (lexer.inFlow || lexer.keyAllowed)
  let lexer := lexer.openBlock lexer.cursor.column lexer.tokens.size .blockMappingStart
  let lexer ← lexer.dropKey
  return { lexer with keyAllowed := !lexer.inFlow }.pushChar .key

private def valueMark (lexer : Lexer) : Option Lexer :=
  match lexer.key with
  | some key =>
    let lexer := { lexer with
      tokens := lexer.tokens.insertIdxIfInBounds key.position .key, key := none, keyAllowed := false }
    let lexer := lexer.openBlock key.column key.position .blockMappingStart
    some (lexer.pushChar .value)
  | none => do
    guard (lexer.inFlow || lexer.keyAllowed)
    let lexer := lexer.openBlock lexer.cursor.column lexer.tokens.size .blockMappingStart
    return { lexer with keyAllowed := !lexer.inFlow }.pushChar .value

/-- Append a token that may be a key. -/
private def keyable (token : Token) (next : Cursor) (lexer : Lexer) : Option Lexer := do
  let lexer ← lexer.saveKey
  return { lexer with keyAllowed := false, cursor := next }.push token

private def blockScalar (folds : Bool) (lexer : Lexer) : Option Lexer := do
  let lexer ← lexer.dropKey
  let (text, next) ← readBlock folds lexer.indent lexer.cursor.skip
  let token := Token.scalar (String.ofList text) (if folds then .folded else .literal)
  return { lexer with keyAllowed := true, cursor := next }.push token

private def quotedScalar (single : Bool) (lexer : Lexer) : Option Lexer := do
  let start := lexer.cursor.skip
  let (text, next) ← readQuoted single start.fuel [] start
  lexer.keyable (.scalar (String.ofList text) (if single then .singleQuoted else .doubleQuoted)) next

private def plainScalar (lexer : Lexer) : Option Lexer := do
  let lexer ← lexer.saveKey
  let indent := (lexer.indent + 1).toNat
  let (text, broken, next) ←
    readPlain lexer.inFlow indent lexer.cursor.fuel [] Gap.none lexer.cursor
  let token := Token.scalar (String.ofList text) .plain
  return { lexer with keyAllowed := broken, cursor := next }.push token

/-- Read the next token; `none` in the answer's second part at the end of the stream. -/
def next (lexer : Lexer) : Option (Lexer × Bool) := do
  let lexer := lexer.skipBlank lexer.cursor.fuel
  let lexer ← lexer.dropStaleKeys
  let lexer := lexer.closeBlocks lexer.cursor.column
  let cursor := lexer.cursor
  let more (lexer : Option Lexer) : Option (Lexer × Bool) := lexer.map (·, true)
  match cursor.rest with
  | [] =>
    let lexer ← (lexer.closeBlocks (-1)).dropKey
    return (lexer, false)
  | c :: rest =>
    let spaced := atBlank rest
    if c == '%' && cursor.column == 0 then
      let lexer ← lexer.leaveBlocks
      let (token, next) ← readDirective cursor.skip
      more (some ({ lexer with cursor := next }.push token))
    else if cursor.atDocumentMark then
      let lexer ← lexer.leaveBlocks
      let token := if c == '-' then Token.documentStart else .documentEnd
      more (some ({ lexer with cursor := cursor.skipMany 3 }.push token))
    else if c == '[' then more (lexer.openFlow .flowSequenceStart)
    else if c == '\x7b' then more (lexer.openFlow .flowMappingStart)
    else if c == ']' then more (lexer.closeFlow .flowSequenceEnd)
    else if c == '\x7d' then more (lexer.closeFlow .flowMappingEnd)
    else if c == ',' then
      let lexer ← lexer.dropKey
      more (some ({ lexer with keyAllowed := true }.pushChar .flowEntry))
    else if c == '-' && spaced then more lexer.blockEntry
    else if c == '?' && (lexer.inFlow || spaced) then more lexer.explicitKey
    else if c == ':' && (lexer.inFlow || spaced) then more lexer.valueMark
    else if c == '*' then
      let (name, next) ← readName cursor
      more (lexer.keyable (.alias name) next)
    else if c == '&' then
      let (name, next) ← readName cursor
      more (lexer.keyable (.anchor name) next)
    else if c == '!' then
      let (name, next) ← readTag cursor
      guard ((lexer.inFlow && next.rest.head? == some ',') || atBlank next.rest)
      more (lexer.keyable (.tag name) next)
    else if c == '|' && !lexer.inFlow then more (lexer.blockScalar false)
    else if c == '>' && !lexer.inFlow then more (lexer.blockScalar true)
    else if c == '\'' then more (lexer.quotedScalar true)
    else if c == '"' then more (lexer.quotedScalar false)
    else if !(isIndicator c || isSpaceOrTab c) || (c == '-' && !rest.head?.any isSpaceOrTab) ||
        (!lexer.inFlow && (c == '?' || c == ':') && !spaced) then more lexer.plainScalar
    else none

/-- Read tokens to the end of the stream. -/
def run : (fuel : Nat) → Lexer → Option (Array Token)
  | 0, _ => none
  | fuel + 1, lexer => do
    let (lexer, more) ← lexer.next
    if more then run fuel lexer else return lexer.tokens

end Lexer

/-- The tokens of a stream, unless it is malformed. -/
def tokens? (text : String) : Option (Array Token) := do
  let chars := text.toList
  guard (chars.all isAllowed)
  let chars := match chars with
    | '\ufeff' :: rest => rest
    | _ => chars
  Lexer.run (chars.length + 2) (Lexer.start chars)

end TabSpec.Yaml
