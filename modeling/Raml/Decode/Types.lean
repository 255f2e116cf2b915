import Raml.Decode.Fields
import Raml.Json.Printer

/-! Types, properties, examples and declarations of annotations, as they are written in a document.
-/

namespace Raml.Decode

open Yaml (Node)

/-- The keys, annotations apart, of an example that is written with its facets. -/
def exampleKeys : List String := ["value", "displayName", "description", "strict"]

/-- Whether a mapping is an example with facets: it has a value, and no key that is no facet. -/
def isExampleWithFacets (entries : List (Node × Node)) : Bool :=
  let keys := entries.filterMap fun (key, _) =>
    match untagged key with
    | .str s => some s
    | _ => none
  keys.length == entries.length && keys.contains "value"
    && keys.all fun key => exampleKeys.contains key || Annotation.isKey key

/-- The value of an example with facets. -/
def exampleValue (f : Fields node) : Except Error Example :=
  match f.get? "value" with
  | none | some ⟨.null, _⟩ => .ok .empty
  | some inner => do
      match ← includedPath? inner.1 (fieldPath f.path "value") with
      | some file => return .ofPath file
      | none => return .ofValue (← Value.ofNode inner.1)

/-- An example; nothing is none. -/
def example? (node : Node) (path : String) : Except Error (Option Example) :=
  let plain : Except Error (Option Example) := do
    match ← includedPath? node path with
    | some file => return some (.ofPath file)
    | none => return some (.ofValue (← Value.ofNode node))
  match node with
  | .null => .ok none
  | .map entries =>
      if isExampleWithFacets entries then do
        let f ← fields (.map entries) path
        let e ← exampleValue f
        let displayName ← f.text "displayName"
        let description ← f.text "description"
        let strict ← f.orElse "strict" flag true
        let annotations ← f.annotations
        return some { e with displayName, description, strict, annotations }
      else plain
  | _ => plain

/-- Examples by their names. -/
def examples (node : Node) (path : String) : Except Error Examples := do
  let found ← (← fields node path).entries.mapM fun (name, inner) => do
    return (name, ← example? inner.1 (fieldPath path name))
  return Keyed.ofPairs (found.filterMap fun (name, e) => e.map (name, ·))

/-- The name of a type. A declaration in its place is kept as its text, which reads as no
reference. -/
def typeName (node : Node) (path : String) : Except Error String :=
  match node with
  | .seq _ | .map _ => (fragment node path).map Json.compact
  | .tagged _ _ => .error (.wrongShape path .typeDeclaration node.shape)
  | node => text node path

/-- What a type declares apart from its facets and its name. -/
def declaration (f : Fields node) : Except Error Declaration := do
  let default? ← f.fragment "default"
  let schema ← f.fragment "schema"
  let single ← f.orElse "example" example? none
  let examples ← f.orElse "examples" examples []
  let displayName ← f.text "displayName"
  let description ← f.text "description"
  let annotations ← f.annotations
  let facets ← f.fragment "facets"
  let xml ← f.fragment "xml"
  return {
    default?, schema, typeName := "", example? := single, examples, displayName, description
    annotations, facets, xml }

/-- The facets of an object with the given properties. -/
def objectFacets (f : Fields node) (properties : Properties) : Except Error ObjectFacets := do
  let minProperties ← f.optional "minProperties" unsigned
  let maxProperties ← f.optional "maxProperties" unsigned
  let additionalProperties ← f.orElse "additionalProperties" flag true
  let discriminator ← f.optional "discriminator" text
  let discriminatorValue ← f.fragment "discriminatorValue"
  return {
    properties, minProperties, maxProperties, additionalProperties, discriminator
    discriminatorValue }

/-- The values of an enumeration; a single one may stand without a list. -/
def enumeration (node : Node) (_path : String) : Except Error (List Value) := do
  match ← Value.ofNode node with
  | .array values => return values
  | .null => return []
  | value => return [value]

def arrayFacets (f : Fields node) : Except Error ArrayFacets := do
  let uniqueItems ← f.orElse "uniqueItems" flag false
  let items ← f.fragment "items"
  let minItems ← f.orElse "minItems" integer 0
  let maxItems ← f.orElse "maxItems" integer unbounded
  return { uniqueItems, items, minItems, maxItems }

/-- The type whose fields are given, and whose properties have been read. Bounds of the length
belong to files where the type is named as one, and to strings otherwise. -/
def typeWithProperties (f : Fields node) (name : String) (declaration : Declaration)
    (properties : Properties) : Except Error TypeNode := do
  let object ← objectFacets f properties
  let values ← f.orElse "enum" enumeration []
  let pattern ← f.text "pattern"
  let array ← arrayFacets f
  let fileTypes ← f.strings "fileTypes"
  let minLength ← f.orElse "minLength" integer 0
  let maxLength ← f.orElse "maxLength" integer unbounded
  let name := if name.isEmpty && !properties.isEmpty then "object" else name
  let unnamed : TypeNode :=
    if (TypeName.splitArray name).1 = "file" then
      { TypeNode.empty with
        declaration, object, scalar := ⟨values⟩, string := { pattern }, array
        file := { fileTypes, minLength, maxLength } }
    else
      { TypeNode.empty with
        declaration, object, scalar := ⟨values⟩, string := { pattern, minLength, maxLength }
        array, file := { fileTypes } }
  return unnamed.setName name

mutual

/-- A type: a name, or a declaration. -/
def typeNode (node : Node) (path : String) : Except Error TypeNode :=
  match node with
  | .null => .ok .empty
  | .bool _ | .num _ | .str _ => (text node path).map .ofName
  | .map entries => do typeFields (.map entries) (← fields (.map entries) path)
  | node => .error (.wrongShape path .typeDeclaration node.shape)
termination_by 4 * sizeOf node + 2

/-- The type that fields declare. -/
def typeFields (node : Node) (f : Fields node) : Except Error TypeNode := do
  let name ← f.orElse "type" typeName ""
  let declaration ← declaration f
  let properties ←
    match f.get? "properties" with
    | some inner => properties inner.1 (fieldPath f.path "properties")
    | none => .ok []
  typeWithProperties f name declaration properties
termination_by 4 * sizeOf node + 1
decreasing_by
  have := inner.2
  omega

/-- A property: a type, and whether it is required. -/
def property (name : String) (node : Node) (path : String) : Except Error Property :=
  match node with
  | .map entries => do
      let f ← fields (.map entries) path
      let required ← f.orElse "required" flag true
      let type ← typeFields (.map entries) f
      return { type, required, name }
  | node => do return { type := ← typeNode node path, required := true, name }
termination_by 4 * sizeOf node + 3

/-- Properties by their names. -/
def properties (node : Node) (path : String) : Except Error Properties :=
  each node path fun name inner path => property name inner.1 path
termination_by 4 * sizeOf node
decreasing_by
  have := inner.2
  omega

end

/-- The properties in a field. -/
def Fields.properties (f : Fields node) (key : String) : Except Error Properties :=
  f.orElse key Decode.properties []

/-- The places where an annotation may be applied. -/
def targets (node : Node) (path : String) : Except Error (List Target) := do
  (← strings node path).mapM fun name =>
    match Target.ofName? name with
    | some target => .ok target
    | none => .error (.invalidTarget path name)

/-- The declaration of an annotation. -/
def annotationType (node : Node) (path : String) : Except Error AnnotationType :=
  match node with
  | .map entries => do
      let f ← fields (.map entries) path
      let allowedTargets ← f.orElse "allowedTargets" targets []
      let type ← typeFields (.map entries) f
      return { type, allowedTargets }
  | node => do return { type := ← typeNode node path, allowedTargets := [] }

end Raml.Decode
