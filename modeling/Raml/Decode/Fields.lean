import Raml.Decode.Value
import Raml.TypeNode

/-! The entries of a mapping as fields, and what a field may hold.

Errors name the way to the node at fault: keys joined by points, positions in brackets.
-/

namespace Raml.Decode

open Yaml (Node)

/-- The way to the field of a node. -/
def fieldPath (path key : String) : String := if path = "" then key else path ++ "." ++ key

/-- The way to the item of a node. -/
def itemPath (path : String) (index : Nat) : String := s!"{path}[{index}]"

/-- A node that is part of another. -/
abbrev Inside (node : Node) := { inner : Node // sizeOf inner < sizeOf node }

/-- The entries of a mapping by the texts of their keys, and the way to the mapping. -/
structure Fields (node : Node) where
  path : String
  entries : List (String × Inside node)

theorem sizeOf_lt_of_mem {entries : List (Node × Node)} {key inner : Node}
    (h : (key, inner) ∈ entries)
    : sizeOf inner < sizeOf (Node.map entries) := by
  have := List.sizeOf_lt_of_mem h
  simp only [Prod.mk.sizeOf_spec, Node.map.sizeOf_spec] at *
  omega

/-- The items of a sequence, each as a part of it. -/
def items (node : Node) : List (Inside node) :=
  match node with
  | .seq nodes =>
      nodes.attach.map fun ⟨inner, h⟩ => ⟨inner, by
        have := List.sizeOf_lt_of_mem h
        simp only [Node.seq.sizeOf_spec]
        omega⟩
  | _ => []

/-- The fields of a mapping; nothing is a mapping without entries. -/
def fields (node : Node) (path : String) : Except Error (Fields node) :=
  match node with
  | .null => .ok ⟨path, []⟩
  | .map entries => do
      let entries ← entries.attach.mapM fun ⟨(key, inner), h⟩ => do
        return (← key.keyText, (⟨inner, sizeOf_lt_of_mem h⟩ : Inside (.map entries)))
      return ⟨path, entries⟩
  | node => .error (.wrongShape path .mapping node.shape)

/-- The text of a scalar. -/
def text (node : Node) (path : String) : Except Error String :=
  match node with
  | .null => .ok ""
  | .bool b => .ok (if b then "true" else "false")
  | .num n => .ok n.text
  | .str s => .ok s
  | node => .error (.wrongShape path .scalar node.shape)

/-- A node without its tags. -/
def untagged : Node → Node
  | .tagged _ content => untagged content
  | node => node

/-- What a node is found to be. -/
def found (node : Node) : Found :=
  match untagged node with
  | .null | .tagged _ _ => .unit
  | .bool b => .bool b
  | .num (.int i) => .int i
  | .num (.float x) => .float (Found.floatLayout.render x)
  | .str s => .str s
  | .seq _ => .sequence
  | .map _ => .map

/-- The node at `path` is not what it should be. -/
def mismatch {α : Type} (node : Node) (path expected : String) : Except Error α :=
  .error (.decode path (.mismatch (.invalidType (found node) expected)))

/-- A truth value. -/
def flag (node : Node) (path : String) : Except Error Bool :=
  match untagged node with
  | .bool b => .ok b
  | _ => mismatch node path "a boolean"

/-- A whole number that is the value of a word. -/
def whole {α : Type} (word? : Int → Option α) (expected : String) (node : Node) (path : String)
    : Except Error α :=
  match untagged node with
  | .num (.int i) =>
      match word? i with
      | some w => .ok w
      | none => .error (.decode path (.mismatch (.invalidValue (.int i) expected)))
  | _ => mismatch node path expected

/-- A whole number with a sign. -/
def integer (node : Node) (path : String) : Except Error Int64 := whole int64? "i64" node path

/-- A whole number without a sign. -/
def unsigned (node : Node) (path : String) : Except Error UInt64 := whole uint64? "u64" node path

/-- A string and nothing else. -/
def string (node : Node) (path : String) : Except Error String :=
  match untagged node with
  | .str s => .ok s
  | _ => mismatch node path "a string"

/-- A list of strings; a single scalar is a list of one. -/
def strings (node : Node) (path : String) : Except Error (List String) :=
  match node with
  | .null => .ok []
  | .bool _ | .num _ | .str _ => (text node path).map fun s => [s]
  | .seq nodes => nodes.zipIdx.mapM fun (item, i) => string item (itemPath path i)
  | node => .error (.wrongShape path .strings node.shape)

/-- A part of a document that is not looked into. -/
def fragment (node : Node) (_path : String) : Except Error Fragment :=
  (Value.ofNode node).map Value.toJson

/-- The path of a file, where a node includes one. -/
def includedPath? (node : Node) (path : String) : Except Error (Option String) :=
  match node with
  | .tagged tag content =>
      if Yaml.bareTag tag = "include" then (text content path).map some else .ok none
  | _ => .ok none

namespace Fields

variable {node : Node} {α : Type}

/-- The node in a field. -/
def get? (f : Fields node) (key : String) : Option (Inside node) := Keyed.get? f.entries key

/-- Reads a field, if it is there. -/
def optional (f : Fields node) (key : String) (read : Node → String → Except Error α)
    : Except Error (Option α) :=
  (f.get? key).mapM fun inner => read inner.1 (fieldPath f.path key)

/-- Reads a field, or takes the value that counts without it. -/
def orElse (f : Fields node) (key : String) (read : Node → String → Except Error α) (default : α)
    : Except Error α :=
  (f.optional key read).map (·.getD default)

def text (f : Fields node) (key : String) : Except Error String := f.orElse key Decode.text ""

def strings (f : Fields node) (key : String) : Except Error (List String) :=
  f.orElse key Decode.strings []

/-- A field that is carried along; nothing in it counts as no field. -/
def fragment (f : Fields node) (key : String) : Except Error (Option Fragment) :=
  match f.get? key with
  | none | some ⟨.null, _⟩ => .ok none
  | some inner => (Decode.fragment inner.1 (fieldPath f.path key)).map some

/-- Reads the fields whose keys are wanted, in order. -/
def collect (f : Fields node) (wanted : String → Bool)
    (read : String → Inside node → String → Except Error α)
    : Except Error (List (String × α)) := do
  let found ← (f.entries.filter fun (key, _) => wanted key).mapM fun (key, inner) => do
    return (key, ← read key inner (fieldPath f.path key))
  return Keyed.ofPairs found

/-- The annotations among the fields. -/
def annotations (f : Fields node) : Except Error Annotations :=
  f.collect Annotation.isKey fun _ inner _ =>
    match inner.1 with
    | .null => .ok (.ofValue none)
    | value => (Value.ofNode value).map fun v => .ofValue (some v)

/-- The keys of the fields that are neither known nor annotations. Of several fields with one known
key only the first is known. -/
def unknownKeys (f : Fields node) (known : List String) : List String :=
  (known.foldl Keyed.erase f.entries).keys.filter fun key => ! Annotation.isKey key

end Fields

/-- Reads the entries of a mapping, each by its key. -/
def each {α : Type} (node : Node) (path : String)
    (read : String → Inside node → String → Except Error α) : Except Error (List (String × α)) := do
  (← fields node path).collect (fun _ => true) read

end Raml.Decode
