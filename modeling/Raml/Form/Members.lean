import Raml.TypeNode
import Raml.Keyed

/-! The members of JSON objects as fields, and what a field may hold.

A field that is given twice makes an object unreadable, and unknown members count for nothing.
-/

namespace Raml.Form

/-- A value that is part of another. -/
abbrev Inside (j : Json) := { inner : Json // sizeOf inner < sizeOf j }

theorem sizeOf_lt_of_member {members : List (String × Json)} {key : String} {inner : Json}
    (h : (key, inner) ∈ members)
    : sizeOf inner < sizeOf (Json.obj members) := by
  have := List.sizeOf_lt_of_mem h
  simp only [Prod.mk.sizeOf_spec, Json.obj.sizeOf_spec] at *
  omega

theorem sizeOf_lt_of_item {items : List Json} {inner : Json} (h : inner ∈ items)
    : sizeOf inner < sizeOf (Json.arr items) := by
  have := List.sizeOf_lt_of_mem h
  simp only [Json.arr.sizeOf_spec]
  omega

/-- The members of a value. -/
structure Fields (j : Json) where
  members : List (String × Inside j)

/-- The members of an object. -/
def fields? (j : Json) : Option (Fields j) :=
  match j with
  | .obj members => some ⟨members.attach.map fun ⟨(key, inner), h⟩ =>
      (key, ⟨inner, sizeOf_lt_of_member h⟩)⟩
  | _ => none

/-- The items of a list. -/
def items? (j : Json) : Option (List (Inside j)) :=
  match j with
  | .arr items => some (items.attach.map fun ⟨inner, h⟩ => ⟨inner, sizeOf_lt_of_item h⟩)
  | _ => none

/-- The members of an object, or the items of a list as the fields of the given names in order. A
list may end early. -/
def fieldsOrItems? (names : List String) (j : Json) : Option (Fields j) :=
  match items? j with
  | some items => if items.length ≤ names.length then some ⟨names.zip items⟩ else none
  | none => fields? j

namespace Fields

variable {j : Json} {α : Type}

/-- The value in a field, if it is there; fails if it is there twice. -/
def single? (f : Fields j) (key : String) : Option (Option (Inside j)) :=
  match f.members.filter (·.1 == key) with
  | [] => some none
  | [(_, inner)] => some (some inner)
  | _ => none

/-- Reads a field, or takes the value that counts without it. -/
def get? (f : Fields j) (key : String) (read : Json → Option α) (default : α) : Option α := do
  match ← f.single? key with
  | some inner => read inner.1
  | none => some default

end Fields

/-- Reads a text. -/
def readText : Json → Option String
  | .str s => some s
  | _ => none

/-- Reads a truth value. -/
def readFlag : Json → Option Bool
  | .bool b => some b
  | _ => none

/-- Reads a whole number with a sign. -/
def readInt64 : Json → Option Int64
  | .int i => int64? i
  | _ => none

/-- Reads a whole number without a sign. -/
def readUInt64 : Json → Option UInt64
  | .int i => uint64? i
  | _ => none

/-- Reads what may be null instead. -/
def readOptional {α : Type} (read : Json → Option α) : Json → Option (Option α)
  | .null => some none
  | j => (read j).map some

/-- Reads a part of a document that is not looked into. -/
def readFragment (j : Json) : Option Fragment := some j.collapse

/-- Reads a list. -/
def readList {α : Type} (read : Json → Option α) : Json → Option (List α)
  | .arr items => items.mapM read
  | _ => none

/-- Reads an object by its keys. Of members with one key the last one counts. -/
def readMap {α : Type} (read : Json → Option α) : Json → Option (List (String × α))
  | .obj members => do
      let found ← members.mapM fun (entry : String × Json) => do
        some (entry.1, ← read entry.2)
      some (Keyed.ofPairs found)
  | _ => none

namespace Fields

variable {j : Json}

def text? (f : Fields j) (key : String) : Option String := f.get? key readText ""

def flag? (f : Fields j) (key : String) (default : Bool) : Option Bool :=
  f.get? key readFlag default

def number? (f : Fields j) (key : String) (default : Int64) : Option Int64 :=
  f.get? key readInt64 default

def fragment? (f : Fields j) (key : String) : Option (Option Fragment) :=
  f.get? key (readOptional readFragment) none

def list? {α : Type} (f : Fields j) (key : String) (read : Json → Option α) : Option (List α) :=
  f.get? key (readList read) []

def map? {α : Type} (f : Fields j) (key : String) (read : Json → Option α)
    : Option (List (String × α)) :=
  f.get? key (readMap read) []

/-- Reads the object in a field by its keys, with every value known to be a part of the whole. -/
def each? {α : Type} (f : Fields j) (key : String) (read : Inside j → Option α)
    : Option (List (String × α)) := do
  match ← f.single? key with
  | none => some []
  | some inner =>
      let members ← (← fields? inner.1).members.mapM fun (name, x) => do
        some (name, ← read ⟨x.1, Nat.lt_trans x.2 inner.2⟩)
      some (Keyed.ofPairs members)

/-- Reads the list in a field, with every item known to be a part of the whole. -/
def eachItem? {α : Type} (f : Fields j) (key : String) (read : Inside j → Option α)
    : Option (List α) := do
  match ← f.single? key with
  | none => some []
  | some inner => (← items? inner.1).mapM fun x => read ⟨x.1, Nat.lt_trans x.2 inner.2⟩

end Fields

end Raml.Form
