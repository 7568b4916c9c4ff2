import TabSpec.Fault
import TabSpec.Text.Blank
import TabSpec.Yaml.Document
import TabSpec.Yaml.Reading

/-! Arguments of macros: values of known types, written as YAML between the parentheses of a call. -/
namespace TabSpec

/-- A type of arguments. -/
class MacroArgument (Value : Type) where
  /-- How a default value is written. -/
  signature : String
  /-- What a call without an argument means. -/
  absent : Value
  ofNode? : Yaml.Node → Option Value
  /-- The meaning of an argument's text. -/
  decode : String → Except SpecFault Value := fun text =>
    if text = "" then .ok absent
    else
      match (Yaml.document? text).bind ofNode? with
      | some value => .ok value
      | none => .error (.argument text signature .notDecodable)

namespace MacroArgument

/-- A text is taken as it stands. -/
instance : MacroArgument String where
  signature := "\"\""
  absent := ""
  ofNode? := Yaml.Node.text?
  decode := .ok

instance : MacroArgument Bool where
  signature := "false"
  absent := false
  ofNode? := Yaml.Node.bool?

instance : MacroArgument Int32 where
  signature := "0"
  absent := 0
  ofNode? node := (node.signed? 32).map Int32.ofInt

instance : MacroArgument Int64 where
  signature := "0"
  absent := 0
  ofNode? node := (node.signed? 64).map Int64.ofInt

instance : MacroArgument UInt32 where
  signature := "0"
  absent := 0
  ofNode? node := (node.unsigned? 32).map UInt32.ofNat

instance : MacroArgument UInt64 where
  signature := "0"
  absent := 0
  ofNode? node := (node.unsigned? 64).map UInt64.ofNat

instance : MacroArgument Binary64 where
  signature := "0.0"
  absent := ⟨0⟩
  ofNode? := Yaml.Node.float?

instance {Value : Type} [MacroArgument Value] : MacroArgument (List Value) where
  signature := "[" ++ signature Value ++ "]"
  absent := []
  ofNode? node := do (← node.items?).mapM ofNode?

/-- The meaning of an argument that lists any number of values, with or without brackets. -/
def decodeList {Value : Type} [MacroArgument Value] (text : String) :
    Except SpecFault (List Value) :=
  if text = "" then .ok []
  else
    let sequence :=
      if (Text.trimFront text.toList).head? = some '[' then text else "[" ++ text ++ "]"
    match ((Yaml.document? sequence).bind ofNode? : Option (List Value)) with
    | some values => .ok values
    | none => .error (.argument text (signature (List Value)) .notDecodable)

/-- How a text is written inside the signature of a record or a list. -/
def flowText (text : String) : String := if text = "" then "\"\"" else text

/-- The signature of a record with these fields. -/
def recordSignature (fields : List (String × String)) : String :=
  "\x7b" ++ String.intercalate ", " (fields.map fun (name, value) => name ++ ": " ++ value) ++
    "\x7d"

end MacroArgument

/-- A specification file, and how many leading arguments are hidden from it. -/
structure SpecTarget where
  path : String
  offset : Nat
deriving Repr, DecidableEq, Inhabited

namespace SpecTarget

def signature : String := MacroArgument.recordSignature [("path", "\"\""), ("offset", "0")]

def ofNode? (node : Yaml.Node) : Option SpecTarget := do
  let entries ← node.entries?
  return {
    path := ← Yaml.Node.field entries "path" "" Yaml.Node.text?
    offset := ← Yaml.Node.field entries "offset" 0 (Yaml.Node.unsigned? 64) }

/-- A target with an offset that may not be negative. -/
def ofOffset (path : String) (offset : Int) : Except ArgumentFault SpecTarget :=
  if offset < 0 then .error .negativeOffset else .ok ⟨path, offset.toNat⟩

/-- The items of a list that may name a target. -/
def ofItems : List Yaml.Node → Except ArgumentFault SpecTarget
  | [path] =>
    match path.stringValue? with
    | some path => .ok ⟨path, 0⟩
    | none => .error .unknownTarget
  | [path, offset] =>
    match path.stringValue?, offset.integerValue? with
    | some path, some offset => ofOffset path (min offset (Text.IntegerRange.signed 64).greatest)
    | _, _ => .error .unknownTarget
  | _ => .error .unknownTarget

/-- Read a target in one of its spellings: a mapping, a list, a path with an offset behind its last
comma, or a path alone. -/
def read (text : String) : Except ArgumentFault SpecTarget :=
  let trimmed := Text.trim text
  match trimmed.toList with
  | [] => .error .missingPath
  | '\x7b' :: _ =>
    match (Yaml.document? trimmed).bind ofNode? with
    | some target => .ok target
    | none => .error .notDecodable
  | '[' :: _ =>
    match (Yaml.document? trimmed).bind Yaml.Node.items? with
    | some items => if items.all Yaml.Node.isValue then ofItems items else .error .notDecodable
    | none => .error .notDecodable
  | _ =>
    match Text.splitLast? "," trimmed with
    | some (path, offset) =>
      match Text.readDecimal? (.signed 64) (Text.trim offset) with
      | some offset => ofOffset (Text.trim path) offset
      | none => .ok ⟨trimmed, 0⟩
    | none => .ok ⟨trimmed, 0⟩

def decode (text : String) : Except SpecFault SpecTarget :=
  (read text).mapError (.argument text signature ·)

instance : MacroArgument SpecTarget where
  signature := signature
  absent := ⟨"", 0⟩
  ofNode? := ofNode?
  decode := decode

end SpecTarget
end TabSpec
