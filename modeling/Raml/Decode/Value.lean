import Raml.Error

/-! Values written as nodes. Tags say nothing about a value, and the keys of objects are texts. -/

namespace Raml

/-- The text of a key. -/
def Yaml.Node.keyText : Yaml.Node → Except Error String
  | .null => .ok ""
  | .bool b => .ok (if b then "true" else "false")
  | .num n => .ok n.text
  | .str s => .ok s
  | .tagged _ content => content.keyText
  | .seq _ | .map _ => .error (.decode "<key>" .keyNotScalar)

namespace Value

/-- The value of a number. -/
def ofNumber : Yaml.Number → Value
  | .int i => ofInt i
  | .float x => .number x

mutual

/-- The value that a node spells. -/
def ofNode : Yaml.Node → Except Error Value
  | .null => .ok .null
  | .bool b => .ok (.boolean b)
  | .num n => .ok (ofNumber n)
  | .str s => .ok (.string s)
  | .seq items => (ofItems items).map .array
  | .map entries => (ofEntries entries).map fun members => .object (Keyed.ofPairs members)
  | .tagged _ content => ofNode content

def ofItems : List Yaml.Node → Except Error (List Value)
  | [] => .ok []
  | item :: items => do
      let value ← ofNode item
      let values ← ofItems items
      return value :: values

def ofEntries : List (Yaml.Node × Yaml.Node) → Except Error (List (String × Value))
  | [] => .ok []
  | (key, node) :: entries => do
      let key ← key.keyText
      let value ← ofNode node
      let members ← ofEntries entries
      return (key, value) :: members

end

end Value

end Raml
