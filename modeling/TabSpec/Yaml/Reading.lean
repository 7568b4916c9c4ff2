import TabSpec.Yaml.Scalar

/-! Reading a node as a value of a known shape. Where a text is asked for, every scalar is one; where
a collection is asked for, an empty scalar is an empty one. -/
namespace TabSpec.Yaml.Node

/-- Whether a node was left out. -/
def isEmpty : Node → Bool
  | .absent => true
  | .scalar _ text style => text.isEmpty && style == .plain
  | _ => false

/-- The text of a scalar, as written. -/
def text? : Node → Option String
  | .scalar _ text _ => some text
  | _ => none

/-- The text of a scalar that may be read as a literal of the kind that `tag` names. -/
private def literal? (tag : String) : Node → Option String
  | .scalar written text style =>
    if style = .plain ∨ (style = .literal ∧ written = some tag) then some text else none
  | _ => none

def bool? (node : Node) : Option Bool := (node.literal? "tag:yaml.org,2002:bool").bind boolOf?

/-- An integer within a range of signed numbers. -/
def signed? (bits : Nat) (node : Node) : Option Int := do
  let text ← node.literal? "tag:yaml.org,2002:int"
  let value ← signedOf? (.signed 64) text.toList
  let range := Text.IntegerRange.signed bits
  guard (range.least ≤ value ∧ value ≤ range.greatest)
  return value

/-- An integer within a range of unsigned numbers. -/
def unsigned? (bits : Nat) (node : Node) : Option Nat := do
  let text ← node.literal? "tag:yaml.org,2002:int"
  let value ← unsignedOf? (.unsigned 64) text.toList
  guard (value ≤ (Text.IntegerRange.unsigned bits).greatest)
  return value.toNat

def float? (node : Node) : Option Binary64 :=
  (node.literal? "tag:yaml.org,2002:float").bind floatOf?

/-- The items of a sequence. -/
def items? : Node → Option (List Node)
  | .sequence _ items => some items
  | node => if node.isEmpty then some [] else none

/-- The entries of a mapping whose keys are scalars. -/
def entries? : Node → Option (List (String × Node))
  | .mapping _ entries => entries.mapM fun (key, value) => key.text?.map (·, value)
  | node => if node.isEmpty then some [] else none

/-- A node that may be null; the answer's inner `none` stands for null. -/
def optional? (node : Node) : Option (Option Node) :=
  match node with
  | .absent => some none
  | .endless => none
  | .scalar tag text style =>
    if style ≠ .plain then some (some node)
    else
      match tag with
      | some "tag:yaml.org,2002:null" => if isNullText text then some none else none
      | some _ => some (some node)
      | none => if text.isEmpty || isNullText text then some none else some (some node)
  | _ => some (some node)

def texts? (node : Node) : Option (List String) := do (← node.items?).mapM text?

/-- Read one field of a record, or take its default; no field may be written twice. -/
def field {Value : Type} (entries : List (String × Node)) (name : String) (default : Value)
    (read : Node → Option Value) : Option Value :=
  match entries.filter (·.1 == name) with
  | [] => some default
  | [(_, node)] => read node
  | _ => none

/-- The value of a scalar of which nothing else is known. A tag of the document's own is passed
over. -/
def scalarValue? : Node → Option ScalarValue
  | .scalar tag text style =>
    if (localTag? tag).isSome then
      if style = .plain then plainValue? text else some (.string text)
    else Yaml.scalarValue? tag text style
  | _ => none

private def isTagged (tag : Option String) : Bool := (localTag? tag).isSome

/-- The text of a scalar that is a string and nothing else. -/
def stringValue? : Node → Option String
  | .scalar tag text style =>
    if isTagged tag then none
    else
      match Yaml.scalarValue? tag text style with
      | some (.string value) => some value
      | _ => none
  | _ => none

/-- The number of a scalar that is an integer and nothing else. -/
def integerValue? : Node → Option Int
  | .scalar tag text style =>
    if isTagged tag then none
    else
      match Yaml.scalarValue? tag text style with
      | some (.integer value) => some value
      | _ => none
  | _ => none

mutual

/-- Whether a node has a value without knowing its shape: its numbers fit, and no mapping has a key
twice. -/
def isValue : Node → Bool
  | .absent => true
  | .endless => false
  | .scalar tag text style => (scalarValue? (.scalar tag text style)).isSome
  | .sequence _ items => areValues items
  | .mapping _ entries => areEntries [] entries

def areValues : List Node → Bool
  | [] => true
  | item :: rest => isValue item && areValues rest

def areEntries (seen : List ScalarValue) : List (Node × Node) → Bool
  | [] => true
  | (key, value) :: rest =>
    isValue key && isValue value &&
      match scalarValue? key with
      | some found => !seen.contains found && areEntries (found :: seen) rest
      | none => areEntries seen rest

end

mutual

/-- Whether a node can be read before its shape is known: besides, it has no tag of the document's
own. -/
def isUntagged : Node → Bool
  | .absent => true
  | .endless => false
  | .scalar tag text style => !isTagged tag && (scalarValue? (.scalar tag text style)).isSome
  | .sequence tag items => !isTagged tag && areUntagged items
  | .mapping tag entries => !isTagged tag && areUntaggedEntries entries

def areUntagged : List Node → Bool
  | [] => true
  | item :: rest => isUntagged item && areUntagged rest

def areUntaggedEntries : List (Node × Node) → Bool
  | [] => true
  | (key, value) :: rest => isUntagged key && isUntagged value && areUntaggedEntries rest

end

end TabSpec.Yaml.Node
