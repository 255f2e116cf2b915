import Raml.Text.Escaped
import Raml.Decimal.Layout

/-! Data of the wrong form: what was found, and what should have been. -/

namespace Raml

/-- Something found in the place of something else. -/
inductive Found where
  /-- Nothing, where the text has a word for nothing. -/
  | unit
  | null
  | bool (b : Bool)
  | int (i : Int)
  | float (text : String)
  | str (s : String)
  | sequence
  | map

/-- Numbers in messages always have a point, which is always in place. -/
def Found.floatLayout : Decimal.Layout :=
  { positional := none, plus := "", tie := .up, nan := "NaN", infinite := "inf" }

def Found.text : Found → String
  | .unit => "unit value"
  | .null => "null"
  | .bool b => s!"boolean `{b}`"
  | .int i => s!"integer `{i}`"
  | .float x => s!"floating point `{x}`"
  | .str s => "string " ++ Text.quoted s
  | .sequence => "sequence"
  | .map => "map"

/-- Why data cannot be read as what it should be. -/
inductive Mismatch where
  | invalidType (found : Found) (expected : String)
  /-- The right kind of number, but out of range. -/
  | invalidValue (found : Found) (expected : String)
  | unknownField (name : String) (known : List String)
  | duplicateField (name : String)

def Mismatch.message : Mismatch → String
  | .invalidType found expected => "invalid type: " ++ found.text ++ ", expected " ++ expected
  | .invalidValue found expected => "invalid value: " ++ found.text ++ ", expected " ++ expected
  | .unknownField name known =>
      s!"unknown field `{name}`, expected one of " ++
        ", ".intercalate (known.map fun k => s!"`{k}`")
  | .duplicateField name => s!"duplicate field `{name}`"

end Raml
