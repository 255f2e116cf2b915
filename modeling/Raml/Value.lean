import Raml.Word64
import Raml.Base64
import Raml.Json

/-! Values: what examples, annotations and enumerations carry. -/

namespace Raml

inductive Value where
  | null
  | boolean (b : Bool)
  | integer (i : Int64)
  | number (x : Float)
  | string (s : String)
  | array (items : List Value)
  | object (members : List (String × Value))
  | binary (bytes : Bytes)
  deriving Inhabited

/-- The kinds of values. -/
inductive ValueKind where
  | null
  | boolean
  | integer
  | number
  | string
  | array
  | object
  | binary
  deriving DecidableEq, Inhabited

def ValueKind.name : ValueKind → String
  | .null => "null"
  | .boolean => "boolean"
  | .integer => "integer"
  | .number => "number"
  | .string => "string"
  | .array => "array"
  | .object => "object"
  | .binary => "binary"

namespace Value

def kind : Value → ValueKind
  | .null => .null
  | .boolean _ => .boolean
  | .integer _ => .integer
  | .number _ => .number
  | .string _ => .string
  | .array _ => .array
  | .object _ => .object
  | .binary _ => .binary

/-- Whether a value is the one that its kind starts from: nothing, false, zero, empty. -/
def isZero : Value → Bool
  | .null => true
  | .boolean b => !b
  | .integer i => i == 0
  | .number x => x == 0.0
  | .string s => s.isEmpty
  | .array items => items.isEmpty
  | .object members => members.isEmpty
  | .binary bytes => bytes.isEmpty

/-- The text of a string. -/
def text? : Value → Option String
  | .string s => some s
  | _ => none

/-- The nearest number to a whole number. -/
def floatOfInt (i : Int) : Float := Float.ofInt i

/-- Whole numbers outside the range of signed words of 64 bits count as numbers. -/
def ofInt (i : Int) : Value :=
  match int64? i with
  | some w => .integer w
  | none => .number (floatOfInt i)

mutual

def ofJson : Json → Value
  | .null => .null
  | .bool b => .boolean b
  | .int i => ofInt i
  | .float x => .number x
  | .str s => .string s
  | .arr items => .array (ofJsonItems items)
  | .obj members => .object (ofJsonMembers members)

def ofJsonItems : List Json → List Value
  | [] => []
  | j :: js => ofJson j :: ofJsonItems js

def ofJsonMembers : List (String × Json) → List (String × Value)
  | [] => []
  | (k, j) :: ms => (k, ofJson j) :: ofJsonMembers ms

end

mutual

/-- Binary content becomes base64 text, and a number that is not finite null. -/
def toJson : Value → Json
  | .null => .null
  | .boolean b => .bool b
  | .integer i => .int i.toInt
  | .number x => if x.isFinite then .float x else .null
  | .string s => .str s
  | .array items => .arr (toJsonItems items)
  | .object members => .obj (toJsonMembers members)
  | .binary bytes => .str (Base64.encode bytes)

def toJsonItems : List Value → List Json
  | [] => []
  | v :: vs => v.toJson :: toJsonItems vs

def toJsonMembers : List (String × Value) → List (String × Json)
  | [] => []
  | (k, v) :: ms => (k, v.toJson) :: toJsonMembers ms

end

/-- The binary content that a string holds as base64 text. -/
def decodeBinary? (v : Value) : Option Value := do
  let text ← v.text?
  let bytes ← Base64.decode? text
  some (.binary bytes)

end Value

end Raml
