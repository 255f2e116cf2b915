import Raml.Text.Utf8
import Raml.Word64
import Raml.Yaml.Fault
import Raml.Yaml.Node
import Raml.Decimal.Reading

/-! What a plain scalar stands for: null, a truth value, a number, or its own text. -/

namespace Raml.Yaml

def isNullWord (s : String) : Bool := s == "null" || s == "Null" || s == "NULL" || s == "~"

/-- The truth value that a word names. -/
def boolOf? (s : String) : Option Bool :=
  if s == "true" || s == "True" || s == "TRUE" then some true
  else if s == "false" || s == "False" || s == "FALSE" then some false
  else none

/-- The number that digits of a base spell. -/
def natOf? (base : Nat) (cs : List Char) : Option Nat :=
  if cs.isEmpty then none
  else
    cs.foldlM (fun n c => do
      let d ← hexDigit? c
      if d < base then some (n * base + d) else none) 0
where
  hexDigit? (c : Char) : Option Nat :=
    let n := c.toNat
    if 48 ≤ n ∧ n ≤ 57 then some (n - 48)
    else if 65 ≤ n ∧ n ≤ 70 then some (n - 55)
    else if 97 ≤ n ∧ n ≤ 102 then some (n - 87)
    else none

/-- Digits after a leading zero are text and no number. -/
def isPaddedDigits (cs : List Char) : Bool :=
  let ds :=
    match cs with
    | '-' :: ds | '+' :: ds => ds
    | ds => ds
  match ds with
  | '0' :: d :: ds => (d :: ds).all Char.isDigit
  | _ => false

/-- The number that digits with a mark of their base spell, if there is such a mark. -/
def basedNat? : List Char → Option Nat
  | '0' :: 'x' :: ds => natOf? 16 ds
  | '0' :: 'o' :: ds => natOf? 8 ds
  | '0' :: 'b' :: ds => natOf? 2 ds
  | _ => none

/-- The whole number that a scalar spells, of any size. -/
def intOf? (cs : List Char) : Option Int :=
  let magnitude (ds : List Char) : Option Nat :=
    match basedNat? ds with
    | some n => some n
    | none => if isPaddedDigits cs then none else natOf? 10 ds
  match cs with
  | '-' :: ds => (magnitude ds).map fun n => -(n : Int)
  | '+' :: ds => (magnitude ds).map Int.ofNat
  | ds => (magnitude ds).map Int.ofNat

/-- What a whole number is worth: a number, a fault, or too large to count as a whole number. -/
inductive Size where
  | fits
  | huge (bits : String)
  | beyond

def sizeOf (i : Int) : Size :=
  if (int64? i).isSome || (uint64? i).isSome then .fits
  else if 0 ≤ i ∧ i < (1 <<< 128 : Nat) then .huge "u128"
  else if i < 0 ∧ i.natAbs ≤ 1 <<< 127 then .huge "i128"
  else .beyond

/-- The number, not whole, that a scalar spells. -/
def floatOf? (s : String) : Option Float :=
  let unsigned := if s.startsWith "+" then String.ofList (s.toList.drop 1) else s
  if s.startsWith "+" && (unsigned.startsWith "+" || unsigned.startsWith "-") then none
  else if [".inf", ".Inf", ".INF"].contains unsigned then some (1.0 / 0.0)
  else if ["-.inf", "-.Inf", "-.INF"].contains s then some (-1.0 / 0.0)
  else if [".nan", ".NaN", ".NAN"].contains s then some (Float.ofBits 0x7FF8000000000000)
  else do
    let x := (← Decimal.numeral? unsigned.toList).toFloat
    if x.isFinite then some x else none

/-- The node of a whole number that a scalar spells. -/
def intNode? (s : String) : Option (Except Misfit Node) := do
  let i ← intOf? s.toList
  match sizeOf i with
  | .fits => some (.ok (.num (.int i)))
  | .huge bits => some (.error (.hugeInteger i bits))
  | .beyond => none

/-- What a plain scalar without a tag stands for. -/
def plainNode (s : String) : Except Misfit Node :=
  if s.isEmpty || isNullWord s then .ok .null
  else
    match boolOf? s with
    | some b => .ok (.bool b)
    | none =>
        match intNode? s with
        | some result => result
        | none =>
            match if isPaddedDigits s.toList then none else floatOf? s with
            | some x => .ok (.num (.float x))
            | none => .ok (.str s)

/-- The kinds of scalars that tags ask for. -/
inductive ScalarKind where
  | bool
  | int
  | float
  | null
  deriving DecidableEq

def ScalarKind.all : List ScalarKind := [.bool, .int, .float, .null]

/-- The tag that asks for a kind of scalar. -/
def ScalarKind.tag : ScalarKind → String
  | .bool => "tag:yaml.org,2002:bool"
  | .int => "tag:yaml.org,2002:int"
  | .float => "tag:yaml.org,2002:float"
  | .null => "tag:yaml.org,2002:null"

/-- The kind of scalar that a tag asks for. -/
def ScalarKind.ofTag? (tag : Bytes) : Option ScalarKind :=
  all.find? fun kind => Bytes.ofText kind.tag == tag

/-- The scalar of a kind that a text spells. -/
def ScalarKind.node (kind : ScalarKind) (s : String) : Except Misfit Node :=
  match kind with
  | .bool =>
      match boolOf? s with
      | some b => .ok (.bool b)
      | none => .error (.wrongScalar s "a boolean")
  | .int => (intNode? s).getD (.error (.wrongScalar s "an integer"))
  | .float =>
      match floatOf? s with
      | some x => .ok (.num (.float x))
      | none => .error (.wrongScalar s "a float")
  | .null => if isNullWord s then .ok .null else .error (.wrongScalar s "null")

/-- Whether a tag is one of the document's own, and not one of the language. -/
def isOwnTag (tag : Bytes) : Bool := (Bytes.ofText "!").isPrefixOf tag

/-- What a scalar stands for. A tag may ask for a kind of scalar; those that a document has of its
own do not, and other ones ask for text. -/
def scalarNode (s : String) (plain : Bool) (tag : Option Bytes) : Except Misfit Node :=
  let untagged := if plain then plainNode s else .ok (.str s)
  match tag with
  | none => untagged
  | some tag =>
      match ScalarKind.ofTag? tag with
      | some kind => kind.node s
      | none => if isOwnTag tag then untagged else .ok (.str s)

end Raml.Yaml
