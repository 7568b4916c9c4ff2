/-! Data exchanged with other programs: the values of JSON. Fields keep their written order, and a
number keeps its text. -/
namespace TabSpec

inductive Json
  | null
  | bool (value : Bool)
  | number (text : String)
  | string (value : String)
  /-- A string with half of a surrogate pair, which no text can hold. -/
  | unpaired
  | array (items : List Json)
  | object (fields : List (String × Json))
deriving Repr, Inhabited, BEq

namespace Json

def ofInt (value : Int) : Json := .number (toString value)

def ofNat (value : Nat) : Json := .number (toString value)

def ofStrings (values : List String) : Json := .array (values.map .string)

def ofOption {Value : Type} (encode : Value → Json) : Option Value → Json
  | some value => encode value
  | none => .null

/-- The first field of that name. -/
def field? (json : Json) (name : String) : Option Json :=
  match json with
  | .object fields => fields.lookup name
  | _ => none

def string? : Json → Option String
  | .string value => some value
  | _ => none

def array? : Json → Option (List Json)
  | .array items => some items
  | _ => none

end Json
end TabSpec
