import Raml.Check
import Raml.Decode.Value
import Raml.Library
import Raml.Source
import Raml.Yaml.Document

/-! Values of examples: what is read from files, and what is derived where a type declares none.

A type takes the first of its own examples that has a value; an array collects the examples of its
items' type, or is made of one derived item; a type takes what its base derives, if that conforms;
an object is made of the values of its properties.
-/

namespace Raml

/-- Reads the file at a path for an example whose type is of the given kind. -/
abbrev Include := String → Kind → Except Error Value

/-- Reads files relative to a directory. Files are taken as they are for types that are files; for
other types they are values as documents spell them, or else text. -/
def Source.include (source : Source) (directory : Path) : Include := fun path kind => do
  let full := directory.join ⟨path⟩
  match source.read full with
  | .error fault => throw (.io full fault)
  | .ok bytes =>
      if kind = .file then return .binary bytes
      else
        match Yaml.read bytes with
        | .ok node => Value.ofNode node
        | .error _ => return .string (Utf8.lossy bytes)

/-- The value of an example, read from its file if it is in one. -/
def Example.valueOf? (load : Include) (kind : Kind) (e : Example) : Except Error (Option Value) :=
  match e.pendingPath? with
  | some path => (load path kind).map some
  | none => .ok e.value

/-- The example with its file read. -/
def Example.materialize (load : Include) (kind : Kind) (e : Example) : Except Error Example :=
  match e.pendingPath? with
  | some path => do return { e with value := some (← load path kind), loaded := true }
  | none => .ok e

/-- The type with the files of its examples read. -/
def TypeNode.materialize (load : Include) (t : TypeNode) : Except Error TypeNode :=
  t.mapExamplesM (Example.materialize load t.kind)

namespace Derivation

/-- Whether a value is a fitting example of a type. -/
def fits (t : TypeNode) (v : Value) : Bool := (t.check v {}).toOption.isSome

/-- The first value among examples. -/
def firstValue (load : Include) (kind : Kind) : List Example → Except Error (Option Value)
  | [] => .ok none
  | e :: es => do
      match ← e.valueOf? load kind with
      | some v => return some v
      | none => firstValue load kind es

/-- The values of all examples in a list; values that are lists count as their items. -/
def flatValues (load : Include) (kind : Kind) : List Example → Except Error (List Value)
  | [] => .ok []
  | e :: es => do
      let here : List Value :=
        match ← e.valueOf? load kind with
        | some (.array vs) => vs
        | some v => [v]
        | none => []
      return here ++ (← flatValues load kind es)

/-- What is known of the declared types that may serve as bases. -/
structure Bases where
  /-- The declaration of a base, unless a value is being derived from it already. -/
  declared : String → Option TypeNode
  /-- The value that a base derives. -/
  derived : String → Except Error (Option Value)

/-- The declaration of a type's base. -/
def Bases.of? (bases : Bases) (t : TypeNode) : Option TypeNode :=
  if t.needsLookup then bases.declared t.baseName else none

/-- The value that a type's base derives, if it fits the type. -/
def fromBase (bases : Bases) (t : TypeNode) : Except Error (Option Value) :=
  match bases.of? t with
  | none => .ok none
  | some _ => do return (← bases.derived t.baseName).filter (fits t)

/-- The type of an array's items, which declares no examples. -/
def itemType (t : TypeNode) : TypeNode :=
  { t with
    isArray := false
    declaration := { t.declaration with example? := none, examples := [] } }

/-- The list of all examples of the type of an array's items, if it fits the array. -/
def collected (load : Include) (bases : Bases) (t : TypeNode) : Except Error (Option Value) := do
  match bases.of? t with
  | none => return none
  | some base =>
      match ← flatValues load base.kind base.allExamples with
      | [] => return none
      | vs => return (some (.array vs)).filter (fits t)

/-- The value of a type without examples: from its base, or else made of `object`. -/
def plain (bases : Bases) (t : TypeNode) (object : Unit → Except Error (Option Value))
    : Except Error (Option Value) := do
  match ← fromBase bases t with
  | some v => return some v
  | none => object ()

mutual

/-- The value that a type derives, given what its bases derive. -/
def value (load : Include) (bases : Bases) : TypeNode → Except Error (Option Value)
  | t@⟨_, ⟨properties, _, _, _, _, _⟩, _, _, _, _, _, _, _, _⟩ => do
      let object : Unit → Except Error (Option Value) := fun _ =>
        if properties.isEmpty then return none
        else return (← members load bases properties).map .object
      match ← firstValue load t.kind t.allExamples with
      | some v => return some v
      | none =>
          if t.isArray then
            match ← collected load bases t with
            | some v => return some v
            | none => return (← plain bases (itemType t) object).map fun v => .array [v]
          else plain bases t object

def propertyValue (load : Include) (bases : Bases) : Property → Except Error (Option Value)
  | ⟨type, _, _⟩ => value load bases type

/-- The members of an object: a value for each property that derives one. Without the value of a
required property there are none. -/
def members (load : Include) (bases : Bases)
    : List (String × Property) → Except Error (Option (List (String × Value)))
  | [] => return some []
  | (key, p) :: properties => do
      match ← propertyValue load bases p with
      | some v => return (← members load bases properties).map ((key, v) :: ·)
      | none => if p.required then return none else members load bases properties

end

/-- The names that are left without one of them. -/
def without (names : List String) (name : String) : List String := names.filter (· ≠ name)

theorem length_without_lt {names : List String} {name : String} (h : name ∈ names)
    : (without names name).length < names.length :=
  List.length_filter_lt_length_iff_exists.2 ⟨name, h, by simp⟩

/-- The value that a type derives. Bases are looked up among `names` as `declared` tells; while a
value is derived from one of them, it is no base. -/
def derive (load : Include) (declared : String → Option TypeNode) (names : List String)
    (t : TypeNode) : Except Error (Option Value) :=
  value load
    { declared := fun name => if names.contains name then declared name else none
      derived := fun name =>
        if _h : name ∈ names then
          match declared name with
          | some base => derive load declared (without names name) base
          | none => .ok none
        else .ok none }
    t
termination_by names.length
decreasing_by exact length_without_lt _h

end Derivation

/-- The name of the example that is added with a derived value. -/
def derivedName : String := "autoGenerated"

/-- Gives a type without examples the value that it derives, as its example and as one of its named
examples. Says whether it did. -/
def TypeNode.addDerived (load : Include) (declared : String → Option TypeNode)
    (names : List String) (t : TypeNode) : Except Error (TypeNode × Bool) := do
  if t.hasExamples then return (t, false)
  match ← Derivation.derive load declared names t with
  | none => return (t, false)
  | some v =>
      let e := Example.ofValue v
      let declaration := { t.declaration with example? := some e, examples := [(derivedName, e)] }
      return ({ t with declaration }, true)

/-- The names under which the types of a library and of those nested in it are found. -/
def Library.typeNames (l : Library) : List String :=
  Keyed.keys l.types ++ l.nested.flatMap fun (lead, nested) =>
    (Keyed.keys nested.types).map (lead ++ ·)

end Raml
