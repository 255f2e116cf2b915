import Raml.Text.Word

/-! Names of types. A name that does not read as a reference is a type written in place. -/

namespace Raml

/-- The kinds that types are made of in the end. -/
inductive Kind where
  | boolean
  | integer
  | number
  | string
  | object
  | array
  | file
  | nil
  | datetime
  | any
  /-- A declared type whose kind is not known yet. -/
  | custom (name : String)
  deriving DecidableEq, Inhabited

namespace Kind

/-- The kind that a name stands for. -/
def ofName : String → Kind
  | "boolean" => .boolean
  | "integer" => .integer
  | "number" => .number
  | "string" => .string
  | "object" => .object
  | "array" => .array
  | "file" => .file
  | "nil" => .nil
  | "date-only" | "time-only" | "datetime-only" | "datetime" => .datetime
  | "" | "any" => .any
  | name => .custom name

def name : Kind → String
  | .boolean => "boolean"
  | .integer => "integer"
  | .number => "number"
  | .string => "string"
  | .object => "object"
  | .array => "array"
  | .file => "file"
  | .nil => "nil"
  | .datetime => "datetime"
  | .any => "any"
  | .custom name => name

/-- Whether a kind is one that needs no declaration. -/
def isBuiltIn : Kind → Bool
  | .custom _ => false
  | _ => true

end Kind

namespace TypeName

/-- The name without one pair of brackets at its end, and whether there was one. -/
def splitArray (name : String) : String × Bool :=
  match name.toList.reverse with
  | ']' :: '[' :: rest => (String.ofList rest.reverse, true)
  | _ => (name, false)

/-- Characters that may stand in a reference. -/
def isNameChar (c : Char) : Bool := Text.isWord c || c == '-'

/-- The parts of a name, which points join. -/
def parts (name : String) : List String := (name.toList.splitOn '.').map String.ofList

/-- Whether a name refers to a type: parts joined by points, and brackets at most at the end. -/
def isReference (name : String) : Bool :=
  (parts (splitArray name).1).all fun part => !part.isEmpty && part.toList.all isNameChar

/-- Whether a name stands for a type written in place. -/
def isInline (name : String) : Bool := !isReference name

end TypeName

end Raml
