import Raml.Decimal.Layout

/-! The content of a YAML document: a tree of nodes. -/

namespace Raml.Yaml

/-- A number: whole and within the range of words of 64 bits, or any other. -/
inductive Number where
  | int (i : Int)
  | float (x : Float)
  deriving Inhabited

inductive Node where
  | null
  | bool (b : Bool)
  | num (n : Number)
  | str (s : String)
  | seq (items : List Node)
  | map (entries : List (Node × Node))
  /-- A node with a tag of its own; the tag is kept without its exclamation mark. -/
  | tagged (tag : String) (content : Node)
  deriving Inhabited

/-- Numbers read back from the fewest digits; the point is in place from the fifth digit behind it
to the sixteenth before it. -/
def numberLayout : Decimal.Layout :=
  { positional := some (-5, 15), plus := "", tie := .even, nan := ".nan", infinite := ".inf" }

/-- The text of a number. -/
def Number.text : Number → String
  | .int i => toString i
  | .float x => numberLayout.render x

/-- Whether two numbers are one key. -/
def Number.same : Number → Number → Bool
  | .int i, .int j => i == j
  | .float x, .float y => x == y || (x.isNaN && y.isNaN)
  | _, _ => false

/-- A tag without the exclamation mark before it. -/
def bareTag (tag : String) : String :=
  match tag.toList with
  | '!' :: c :: cs => String.ofList (c :: cs)
  | _ => tag

namespace Node

mutual

/-- Whether two nodes are one key. The order of a mapping does not count. -/
def same : Node → Node → Bool
  | .null, .null => true
  | .bool a, .bool b => a == b
  | .num a, .num b => a.same b
  | .str a, .str b => a == b
  | .seq as, .seq bs => sameItems as bs
  | .map as, .map bs => as.length == bs.length && sameEntries as bs
  | .tagged s a, .tagged t b => bareTag s == bareTag t && a.same b
  | _, _ => false

def sameItems : List Node → List Node → Bool
  | [], [] => true
  | a :: as, b :: bs => a.same b && sameItems as bs
  | _, _ => false

def sameEntries : List (Node × Node) → List (Node × Node) → Bool
  | [], _ => true
  | (k, v) :: as, bs => bs.any (fun (l, w) => k.same l && v.same w) && sameEntries as bs

end

end Node

inductive Shape where
  | null
  | scalar
  | sequence
  | mapping
  | tagged
  deriving DecidableEq

def Shape.text : Shape → String
  | .null => "null"
  | .scalar => "a scalar"
  | .sequence => "a sequence"
  | .mapping => "a mapping"
  | .tagged => "a tagged value"

def Node.shape : Node → Shape
  | .null => .null
  | .bool _ | .num _ | .str _ => .scalar
  | .seq _ => .sequence
  | .map _ => .mapping
  | .tagged _ _ => .tagged

end Raml.Yaml
