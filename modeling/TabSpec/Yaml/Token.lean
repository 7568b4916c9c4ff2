/-! Tokens of a YAML stream, and the character classes that tell them apart. -/
namespace TabSpec.Yaml

/-- How a scalar was written. -/
inductive ScalarStyle
  | plain
  | singleQuoted
  | doubleQuoted
  | literal
  | folded
deriving Repr, DecidableEq, Inhabited

/-- A tag as written: a handle, which a directive may define, and the text behind it. -/
structure TagName where
  handle : String
  suffix : String
deriving Repr, DecidableEq, Inhabited

inductive Token
  | versionDirective (major minor : Nat)
  | tagDirective (handle front : String)
  | documentStart
  | documentEnd
  | blockSequenceStart
  | blockMappingStart
  | blockEnd
  | flowSequenceStart
  | flowSequenceEnd
  | flowMappingStart
  | flowMappingEnd
  | blockEntry
  | flowEntry
  | key
  | value
  | alias (name : String)
  | anchor (name : String)
  | tag (name : TagName)
  | scalar (text : String) (style : ScalarStyle)
deriving Repr, DecidableEq, Inhabited

def isLineBreak (c : Char) : Bool :=
  c == '\n' || c == '\r' || c == '\x85' || c == '\u2028' || c == '\u2029'

def isSpaceOrTab (c : Char) : Bool := c == ' ' || c == '\t'

/-- Whether a text ends, or goes on with a blank or a line break. -/
def atBlank : List Char → Bool
  | [] => true
  | c :: _ => isSpaceOrTab c || isLineBreak c

/-- Whether a line ends here. -/
def atLineEnd : List Char → Bool
  | [] => true
  | c :: _ => isLineBreak c

/-- Letters, digits, underscore and hyphen: the characters of anchors, handles and directives. -/
def isWordChar (c : Char) : Bool := c.isAlphanum || c == '_' || c == '-'

/-- The characters a stream may hold. -/
def isAllowed (c : Char) : Bool :=
  let n := c.toNat
  n == 0x09 || n == 0x0a || n == 0x0d || (0x20 ≤ n && n ≤ 0x7e) || n == 0x85 ||
    (0xa0 ≤ n && n ≤ 0xd7ff) || (0xe000 ≤ n && n ≤ 0xfffd) || 0x10000 ≤ n

/-- Characters that open something other than a plain scalar. -/
def isIndicator (c : Char) : Bool := "-?:,[]\x7b\x7d#&*!|>'\"%@`".toList.contains c

end TabSpec.Yaml
