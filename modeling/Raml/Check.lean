import Raml.Error
import Raml.Keyed
import Raml.TypeNode

/-! Checking values against types.

An array takes a list whose items all conform. An object takes an object whose properties conform,
in order of their declaration; so does a type whose kind is not known. Types written in place take
anything.
-/

namespace Raml

/-- How far checks are relaxed. -/
structure CheckOptions where
  /-- Integers count as numbers, and numbers without a fraction as integers. -/
  integerAsNumber : Bool := false
  /-- Null counts as an array, and arrays are never required. -/
  nullAsArray : Bool := false
  /-- A required property may be empty. -/
  emptyRequired : Bool := false
  deriving DecidableEq, Inhabited

namespace Value

/-- Whether a value is an empty text, list, object or content. -/
def isEmpty (v : Value) : Bool :=
  match v with
  | .string _ | .array _ | .object _ | .binary _ => v.isZero
  | _ => false

/-- Whether a number has no fraction and a size of at most 2 ^ 63. -/
def isWhole (x : Float) : Bool :=
  match x.toModel.unpack with
  | .zero _ => true
  | .finite _ mantissa exponent _ =>
      let whole := mantissa <<< exponent.toNat
      let parts := 1 <<< (-exponent).toNat
      whole % parts == 0 && decide (whole ≤ parts <<< 63)
  | .infinity _ | .notANumber => false

end Value

namespace Check

/-- The value itself is of the wrong kind. -/
def wrongKind (t : TypeNode) (v : Value) : Error := .typeMismatch none t.typeName v.kind

/-- The items of a list, each checked by `check`. -/
def items (t : TypeNode) (check : Value → Except Error Unit) (index : Nat)
    : List Value → Except Error Unit
  | [] => .ok ()
  | v :: vs =>
      match check v with
      | .ok () => items t check (index + 1) vs
      | .error (.typeMismatch none _ _) => .error (.elementMismatch index t.baseName v.kind)
      | .error e => .error e

/-- A list whose items are checked by `check`. -/
def array (o : CheckOptions) (t : TypeNode) (check : Value → Except Error Unit) (v : Value)
    : Except Error Unit :=
  match v with
  | .array vs => items t check 0 vs
  | .null => if o.nullAsArray then .ok () else .error (wrongKind t v)
  | _ => .error (wrongKind t v)

/-- A value of a kind that is neither an object nor unknown. -/
def scalar (o : CheckOptions) (t : TypeNode) (v : Value) : Except Error Unit :=
  let ok :=
    match t.kind, v with
    | .boolean, .boolean _ => true
    | .string, .string _ | .datetime, .string _ => true
    | .integer, .integer _ => true
    | .integer, .number x => o.integerAsNumber && Value.isWhole x
    | .number, .number _ => true
    | .number, .integer _ => o.integerAsNumber
    | .file, _ | .any, _ => true
    | .nil, .null => true
    | .array, .array _ => true
    | .array, .null => o.nullAsArray
    | _, _ => false
  if ok then .ok () else .error (wrongKind t v)

/-- Whether the value of a required property is there; `members` is `none` if there is no object
that could hold it. -/
def required (o : CheckOptions) (owner : TypeNode) (p : Property)
    (members : Option (List (String × Value))) : Except Error Unit :=
  if !p.required || p.type.isArray && o.nullAsArray then .ok ()
  else
    match members.bind (Keyed.get? · p.name) with
    | some v =>
        if !o.emptyRequired && v.isEmpty then .error (.requiredProperty p.name owner.typeName)
        else .ok ()
    | none => .error (.requiredProperty p.name owner.typeName)

/-- What the mismatch of a property's value means for the property. -/
def ofProperty (p : Property) (v : Value) : Error → Error
  | .typeMismatch none _ _ => .typeMismatch (some p.name) p.type.typeName v.kind
  | e@(.elementMismatch _ _ _) => .propertyMismatch p.name e
  | e => e

mutual

/-- Checks a value against a type, as one that is no array. -/
def single (o : CheckOptions) : TypeNode → Value → Except Error Unit
  | t@⟨_, ⟨properties, _, _, _, _, _⟩, _, _, _, _, _, _, _, _⟩, v =>
      match t.kind with
      | .object | .custom _ =>
          if t.isInline then .ok ()
          else
            match v with
            | .object members => checkProperties o t properties (some members)
            | .null => checkProperties o t properties none
            | _ => .error (wrongKind t v)
      | _ => scalar o t v

/-- Checks the value of a property: that it is there, and that it conforms. -/
def property (o : CheckOptions) (owner : TypeNode) (members : Option (List (String × Value)))
    : Property → Except Error Unit
  | p@⟨type, required, name⟩ => do
      Check.required o owner p members
      match members.bind (Keyed.get? · name) with
      | none => return ()
      | some v =>
          if !required && v.isZero then return ()
          let result := if type.isArray then array o type (single o type) v else single o type v
          match result with
          | .ok () => return ()
          | .error e => throw (ofProperty p v e)

def checkProperties (o : CheckOptions) (owner : TypeNode)
    : List (String × Property) → Option (List (String × Value)) → Except Error Unit
  | [], _ => .ok ()
  | (_, p) :: properties, members => do
      property o owner members p
      checkProperties o owner properties members

end

end Check

/-- Checks a value against a type. -/
def TypeNode.check (t : TypeNode) (v : Value) (o : CheckOptions) : Except Error Unit :=
  if t.isArray then Check.array o t (Check.single o t) v else Check.single o t v

end Raml
