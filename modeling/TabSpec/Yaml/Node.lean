import TabSpec.Yaml.Token

/-! The tree of a YAML document, with aliases replaced by what they stand for. -/
namespace TabSpec.Yaml

inductive Node
  /-- A document without content. -/
  | absent
  | scalar (tag : Option String) (text : String) (style : ScalarStyle)
  | sequence (tag : Option String) (items : List Node)
  | mapping (tag : Option String) (entries : List (Node × Node))
  /-- An alias inside the node that it stands for; it has no finite content. -/
  | endless
deriving Repr, Inhabited

end TabSpec.Yaml
