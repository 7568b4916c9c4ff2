import TabSpec.Yaml.Lexer
import TabSpec.Yaml.Node

/-! From the tokens of a YAML stream to its one document. -/
namespace TabSpec.Yaml

/-- Tokens still to be read, and the nodes that aliases may stand for. -/
structure Remainder where
  tokens : List Token
  anchors : List (String × Node)
deriving Inhabited

namespace Remainder

/-- Handles of tags with what they stand for. -/
abbrev Handles := List (String × String)

def defaultHandles : Handles := [("!", "!"), ("!!", "tag:yaml.org,2002:")]

def pass (rest : Remainder) (count : Nat) : Remainder :=
  { rest with tokens := rest.tokens.drop count }

def emptyScalar : Node := .scalar none "" .plain

/-- The full text of a tag. -/
def resolveTag (handles : Handles) (name : TagName) : Option String :=
  if name.handle.isEmpty then some name.suffix
  else (handles.lookup name.handle).map (· ++ name.suffix)

/-- Read the anchor and the tag before a node, in either order. -/
def properties (handles : Handles) (rest : Remainder) :
    Option (Option String × Option String × Remainder) :=
  match rest.tokens with
  | .anchor anchor :: .tag name :: _ => do
    let tag ← resolveTag handles name
    return (some anchor, some tag, rest.pass 2)
  | .tag name :: .anchor anchor :: _ => do
    let tag ← resolveTag handles name
    return (some anchor, some tag, rest.pass 2)
  | .anchor anchor :: _ => some (some anchor, none, rest.pass 1)
  | .tag name :: _ => do
    let tag ← resolveTag handles name
    return (none, some tag, rest.pass 1)
  | _ => some (none, none, rest)

def remember (anchor : Option String) (node : Node) (rest : Remainder) : Remainder :=
  match anchor with
  | some name => { rest with anchors := (name, node) :: rest.anchors }
  | none => rest

/-- A node with its anchor noted. -/
private def finish (anchor : Option String) (node : Node) (rest : Remainder) :
    Option (Node × Remainder) := some (node, rest.remember anchor node)

variable (handles : Handles)

mutual

/-- Read a node. Block collections may stand only where `block` allows them, and a sequence without
further indentation only as a mapping's key or value. -/
def node (block unindented : Bool) : (fuel : Nat) → Remainder → Option (Node × Remainder)
  | 0, _ => none
  | fuel + 1, rest =>
    match rest.tokens with
    | .alias name :: _ => do
      let node ← rest.anchors.lookup name
      return (node, rest.pass 1)
    | _ => do
      let (anchor, tag, rest) ← rest.properties handles
      let opened := rest.remember anchor .endless
      let sequence (read : Remainder → Option (List Node × Remainder)) (skipped : Nat) := do
        let (items, rest) ← read (opened.pass skipped)
        finish anchor (.sequence tag items) rest
      let mapping (read : Remainder → Option (List (Node × Node) × Remainder)) := do
        let (entries, rest) ← read (opened.pass 1)
        finish anchor (.mapping tag entries) rest
      match rest.tokens with
      | .scalar text style :: _ =>
        let tag := if tag == some "!" then none else tag
        finish anchor (.scalar tag text style) (rest.pass 1)
      | .flowSequenceStart :: _ => sequence (flowItems true fuel) 1
      | .flowMappingStart :: _ => mapping (flowEntries true fuel)
      | token :: _ =>
        if unindented && token == .blockEntry then sequence (unindentedItems fuel) 0
        else if block && token == .blockSequenceStart then sequence (blockItems fuel) 1
        else if block && token == .blockMappingStart then mapping (blockEntries fuel)
        else if anchor.isSome || tag.isSome then finish anchor (.scalar tag "" .plain) rest
        else none
      | [] =>
        if anchor.isSome || tag.isSome then finish anchor (.scalar tag "" .plain) rest else none

/-- Read a node, or an empty scalar where one of `closers` stands. -/
def nodeUnless (closers : List Token) (block unindented : Bool) :
    (fuel : Nat) → Remainder → Option (Node × Remainder)
  | 0, _ => none
  | fuel + 1, rest =>
    if rest.tokens.head?.any closers.contains then some (emptyScalar, rest)
    else node block unindented fuel rest

def blockItems : (fuel : Nat) → Remainder → Option (List Node × Remainder)
  | 0, _ => none
  | fuel + 1, rest =>
    match rest.tokens with
    | .blockEntry :: _ => do
      let (item, rest) ← nodeUnless [.blockEntry, .blockEnd] true false fuel (rest.pass 1)
      let (items, rest) ← blockItems fuel rest
      return (item :: items, rest)
    | .blockEnd :: _ => some ([], rest.pass 1)
    | _ => none

def unindentedItems : (fuel : Nat) → Remainder → Option (List Node × Remainder)
  | 0, _ => none
  | fuel + 1, rest =>
    match rest.tokens with
    | .blockEntry :: _ => do
      let (item, rest) ←
        nodeUnless [.blockEntry, .key, .value, .blockEnd] true false fuel (rest.pass 1)
      let (items, rest) ← unindentedItems fuel rest
      return (item :: items, rest)
    | _ => some ([], rest)

def blockEntries : (fuel : Nat) → Remainder → Option (List (Node × Node) × Remainder)
  | 0, _ => none
  | fuel + 1, rest =>
    match rest.tokens with
    | .blockEnd :: _ => some ([], rest.pass 1)
    | .key :: _ => do
      let (key, rest) ← nodeUnless [.key, .value, .blockEnd] true true fuel (rest.pass 1)
      let (value, rest) ← blockValue fuel rest
      let (entries, rest) ← blockEntries fuel rest
      return ((key, value) :: entries, rest)
    | .value :: _ => none
    | _ => none

def blockValue : (fuel : Nat) → Remainder → Option (Node × Remainder)
  | 0, _ => none
  | fuel + 1, rest =>
    match rest.tokens with
    | .value :: _ => nodeUnless [.key, .value, .blockEnd] true true fuel (rest.pass 1)
    | _ => some (emptyScalar, rest)

def flowItems (first : Bool) : (fuel : Nat) → Remainder → Option (List Node × Remainder)
  | 0, _ => none
  | fuel + 1, rest =>
    match rest.tokens with
    | .flowSequenceEnd :: _ => some ([], rest.pass 1)
    | _ => do
      let rest ←
        if first then some rest
        else
          match rest.tokens with
          | .flowEntry :: _ => some (rest.pass 1)
          | _ => none
      match rest.tokens with
      | .flowSequenceEnd :: _ => return ([], rest.pass 1)
      | .key :: _ => do
        let (entry, rest) ← flowPair fuel (rest.pass 1)
        let (items, rest) ← flowItems false fuel rest
        return (.mapping none [entry] :: items, rest)
      | _ => do
        let (item, rest) ← node false false fuel rest
        let (items, rest) ← flowItems false fuel rest
        return (item :: items, rest)

/-- Read the one entry of a mapping that is written without braces as an item of a flow sequence.
A key that is left out takes the token after it along. -/
def flowPair : (fuel : Nat) → Remainder → Option ((Node × Node) × Remainder)
  | 0, _ => none
  | fuel + 1, rest => do
    let (key, rest) ←
      if rest.tokens.head?.any [Token.value, .flowEntry, .flowSequenceEnd].contains then
        some (emptyScalar, rest.pass 1)
      else node false false fuel rest
    match rest.tokens with
    | .value :: _ =>
      let (value, rest) ←
        nodeUnless [.flowEntry, .flowSequenceEnd] false false fuel (rest.pass 1)
      return ((key, value), rest)
    | _ => return ((key, emptyScalar), rest)

def flowEntries (first : Bool) :
    (fuel : Nat) → Remainder → Option (List (Node × Node) × Remainder)
  | 0, _ => none
  | fuel + 1, rest =>
    match rest.tokens with
    | .flowMappingEnd :: _ => some ([], rest.pass 1)
    | _ => do
      let rest ←
        if first then some rest
        else
          match rest.tokens with
          | .flowEntry :: _ => some (rest.pass 1)
          | _ => none
      match rest.tokens with
      | .flowMappingEnd :: _ => return ([], rest.pass 1)
      | .key :: _ => do
        let closers := [Token.value, .flowEntry, .flowMappingEnd]
        let (key, rest) ← nodeUnless closers false false fuel (rest.pass 1)
        let (value, rest) ← flowValue fuel rest
        let (entries, rest) ← flowEntries false fuel rest
        return ((key, value) :: entries, rest)
      | _ => do
        let (key, rest) ← node false false fuel rest
        let (entries, rest) ← flowEntries false fuel rest
        return ((key, emptyScalar) :: entries, rest)

def flowValue : (fuel : Nat) → Remainder → Option (Node × Remainder)
  | 0, _ => none
  | fuel + 1, rest =>
    match rest.tokens with
    | .value :: _ => nodeUnless [.flowEntry, .flowMappingEnd] false false fuel (rest.pass 1)
    | _ => some (emptyScalar, rest)

end

/-- Read the directives before a document. -/
def directives : (tokens : List Token) → (versioned : Bool) → Handles →
    Option (Handles × Bool × List Token)
  | .versionDirective major minor :: rest, versioned, handles =>
    if versioned || major != 1 || !(minor == 1 || minor == 2) then none
    else directives rest true handles
  | .tagDirective handle front :: rest, versioned, handles =>
    if (handles.lookup handle).isSome then none
    else directives rest versioned (handles ++ [(handle, front)])
  | tokens, versioned, handles => some (handles, versioned || !handles.isEmpty, tokens)

end Remainder

/-- The one document of a stream; there must be no further one. -/
def document? (text : String) : Option Node := do
  let tokens ← tokens? text
  match tokens.toList with
  | [] => return .absent
  | tokens => do
    let (written, directed, tokens) ← Remainder.directives tokens false []
    let handles := written ++ Remainder.defaultHandles
    let fuel := 4 * tokens.length + 8
    let (node, rest) ←
      match tokens with
      | .documentStart :: rest =>
        match rest with
        | [] | .documentStart :: _ | .documentEnd :: _ | .versionDirective _ _ :: _
        | .tagDirective _ _ :: _ => some (Remainder.emptyScalar, ⟨rest, []⟩)
        | _ => Remainder.node handles true false fuel ⟨rest, []⟩
      | _ => if directed then none else Remainder.node handles true false fuel ⟨tokens, []⟩
    guard (rest.tokens.all (· == .documentEnd))
    return node

end TabSpec.Yaml
