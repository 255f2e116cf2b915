import Raml.Document
import Raml.Form.Members
import Raml.Form.Outline

/-! Reading documents and their parts from JSON. What is not there has its default; what cannot be
read makes the whole unreadable.

What follows from the names of types, the names of properties and annotations, and the links of
annotations are not part of the written form and are left empty.
-/

namespace Raml

open Form

/-- Reads an annotation: its value, where null stands for none. -/
def Annotation.read (j : Json) : Option Annotation :=
  match j with
  | .null => some (.ofValue none)
  | j => some (.ofValue (some (Value.ofJson j.collapse)))

/-- The annotations in the field that holds them. -/
def Form.Fields.annotations? (f : Fields j) : Option Annotations :=
  f.map? "annotations" Annotation.read

/-- Reads a value. -/
def Value.read (j : Json) : Option Value := some (.ofJson j.collapse)

def Example.read (j : Json) : Option Example := do
  let f ← fieldsOrItems?
    ["displayName", "description", "annotations", "value", "strict", "includeTag"] j
  some {
    displayName := ← f.text? "displayName"
    description := ← f.text? "description"
    annotations := ← f.annotations?
    value := ← f.get? "value" (readOptional Value.read) none
    strict := ← f.flag? "strict" true
    included := ← f.flag? "includeTag" false
    loaded := false }

/-- What a type declares apart from its facets. -/
def Form.Fields.declaration? (f : Fields j) : Option Declaration := do
  some {
    default? := ← f.fragment? "default"
    schema := ← f.fragment? "schema"
    typeName := ← f.text? "type"
    example? := ← f.get? "example" (readOptional Example.read) none
    examples := ← f.map? "examples" Example.read
    displayName := ← f.text? "displayName"
    description := ← f.text? "description"
    annotations := ← f.annotations?
    facets := ← f.fragment? "facets"
    xml := ← f.fragment? "xml" }

/-- The facets of an object with the given properties. -/
def Form.Fields.objectFacets? (f : Fields j) (properties : Properties) : Option ObjectFacets := do
  some {
    properties
    minProperties := ← f.get? "minProperties" (readOptional readUInt64) none
    maxProperties := ← f.get? "maxProperties" (readOptional readUInt64) none
    additionalProperties := ← f.flag? "additionalProperties" true
    discriminator := ← f.get? "discriminator" (readOptional readText) none
    discriminatorValue := ← f.fragment? "discriminatorValue" }

/-- The type with the given properties. The bounds of a length are read as those of strings. -/
def Form.Fields.typeWithProperties? (f : Fields j) (properties : Properties)
    : Option TypeNode := do
  some { TypeNode.empty with
    declaration := ← f.declaration?
    object := ← f.objectFacets? properties
    scalar := { enumeration := ← f.list? "enum" Value.read }
    string := {
      pattern := ← f.text? "pattern"
      minLength := ← f.number? "minLength" 0
      maxLength := ← f.number? "maxLength" unbounded }
    array := {
      uniqueItems := ← f.flag? "uniqueItems" false
      items := ← f.fragment? "items"
      minItems := ← f.number? "minItems" 0
      maxItems := ← f.number? "maxItems" unbounded }
    file := { fileTypes := ← f.list? "fileTypes" readText }
    kind := .ofName (← f.text? "nativeType") }

/-- Reads a property. -/
def Property.read (j : Json) : Option Property := do
  let f ← fields? j
  let properties ← f.each? "properties" fun inner => Property.read inner.1
  some { type := ← f.typeWithProperties? properties, required := ← f.flag? "required" true, name := "" }
termination_by sizeOf j
decreasing_by exact inner.2

/-- Reads a type. -/
def TypeNode.read (j : Json) : Option TypeNode := do
  let f ← fields? j
  f.typeWithProperties? (← f.map? "properties" Property.read)

/-- The properties in a field. -/
def Form.Fields.properties? (f : Fields j) (key : String) : Option Properties :=
  f.map? key Property.read

/-- Reads the name of a place where an annotation may be applied. -/
def Target.read : Json → Option Target
  | .str name | .obj [(name, .null)] | .obj [(name, .obj [])] => Target.ofName? name
  | _ => none

def AnnotationType.read (j : Json) : Option AnnotationType := do
  let f ← fields? j
  some { type := ← TypeNode.read j, allowedTargets := ← f.list? "allowedTargets" Target.read }

/-- The bodies in the field that holds them. -/
def Form.Fields.bodies? (f : Fields j) : Option Bodies := f.map? "body" TypeNode.read

def Response.read (j : Json) : Option Response := do
  let f ← fieldsOrItems? Part.response.fieldNames j
  some {
    description := ← f.text? "description"
    annotations := ← f.annotations?
    headers := ← f.properties? "headers"
    bodies := ← f.bodies? }

/-- Reads a status as it is written. -/
def readStatus (key : String) : Option UInt16 :=
  let ds := key.toList
  if ds.isEmpty || !ds.all Char.isDigit || (ds.length > 1 && ds.head? == some '0') then none
  else
    let n : Nat := ds.foldl (fun n d => n * 10 + (d.toNat - 48)) 0
    if n < 65536 then some n.toUInt16 else none

def Responses.read : Json → Option Responses
  | .obj members => members.foldlM (fun found (key, j) => do
      some (Responses.insert found (← readStatus key) (← Response.read j))) []
  | _ => none

/-- The method with the given uses of traits, whose responses `responses` reads. -/
def Form.Fields.methodWithTraits? (f : Fields j) (responses : Json → Option Responses)
    (is : List Trait) : Option Method := do
  some {
    displayName := ← f.text? "displayName"
    description := ← f.text? "description"
    annotations := ← f.annotations?
    queryParameters := ← f.properties? "queryParameters"
    headers := ← f.properties? "headers"
    queryString := ← f.fragment? "queryString"
    responses := ← f.get? "responses" responses []
    bodies := ← f.bodies?
    protocols := ← f.list? "protocols" readText
    is
    securedBy := ← f.fragment? "securedBy"
    unexpected := [] }

/-- Reads the responses of a trait, which has to be without any. -/
def Responses.readNone : Json → Option Responses
  | .obj [] => some []
  | _ => none

/-- Reads a trait. -/
def Trait.read (j : Json) : Option Trait := do
  let f ← fields? j
  let is ← f.eachItem? "is" fun inner => Trait.read inner.1
  some {
    reference := ← f.text? "name"
    method := ← f.methodWithTraits? Responses.readNone is
    usage := ← f.text? "usage"
    resourcePath := ← f.text? "resourcePath"
    resourcePathName := ← f.text? "resourcePathName"
    methodName := ← f.text? "methodName"
    source := none }
termination_by sizeOf j
decreasing_by exact inner.2

def Method.read (j : Json) : Option Method := do
  let f ← fieldsOrItems? Part.method.fieldNames j
  f.methodWithTraits? Responses.read (← f.list? "is" Trait.read)

mutual

/-- The library that fields hold. What libraries are read of gets smaller with every second call. -/
def libraryOfFields? (j : Json) (f : Fields j) : Option Library := do
  let uses ← f.each? "uses" fun inner => Use.read inner.1
  some {
    usage := ← f.text? "usage"
    schemas := ← f.fragment? "schemas"
    types := ← f.map? "types" TypeNode.read
    traits := ← f.map? "traits" Trait.read
    resourceTypes := ← f.fragment? "resourceTypes"
    annotationTypes := ← f.map? "annotationTypes" AnnotationType.read
    annotations := ← f.annotations?
    securitySchemes := ← f.fragment? "securitySchemes"
    uses
    location := none }
termination_by 2 * sizeOf j
decreasing_by
  have := inner.2
  omega

/-- Reads the path of a library, or the library itself. -/
def Use.read (j : Json) : Option Use :=
  match readText j with
  | some path => some (.external path)
  | none => do
      let f ← fieldsOrItems?
        ["usage", "schemas", "types", "traits", "resourceTypes", "annotationTypes", "annotations",
          "securitySchemes", "uses"] j
      some (.loaded (← libraryOfFields? j f))
termination_by 2 * sizeOf j + 1

end

/-- Reads a resource. -/
def Resource.read (j : Json) : Option Resource := do
  let f ← fieldsOrItems? Part.resource.fieldNames j
  let resources ← f.each? "resources" fun inner => Resource.read inner.1
  some {
    displayName := ← f.text? "displayName"
    description := ← f.text? "description"
    annotations := ← f.annotations?
    methods := ← f.map? "methods" Method.read
    is := ← f.list? "is" Trait.read
    type := ← f.fragment? "type"
    securedBy := ← f.fragment? "securedBy"
    uriParameters := ← f.properties? "uriParameters"
    resources }
termination_by sizeOf j
decreasing_by exact inner.2

def DocumentationItem.read (j : Json) : Option DocumentationItem := do
  let f ← fieldsOrItems? Part.documentationItem.fieldNames j
  some { title := ← f.text? "title", content := ← f.text? "content" }

/-- Reads a document. -/
def Document.read (j : Json) : Option Document := do
  let f ← fields? j
  some {
    title := ← f.text? "title"
    description := ← f.text? "description"
    version := ← f.text? "version"
    baseUri := ← f.text? "baseUri"
    baseUriParameters := ← f.properties? "baseUriParameters"
    protocols := ← f.list? "protocols" readText
    mediaType := ← f.list? "mediaType" readText
    documentation := ← f.list? "documentation" DocumentationItem.read
    securedBy := ← f.fragment? "securedBy"
    library := ← libraryOfFields? j f
    resources := ← f.map? "resources" Resource.read }

end Raml
