import Raml.TypeName
import Raml.Target
import Raml.Value

/-! Types and what belongs to them: properties, examples, annotations.

A type has a declaration and one group of facets for each family of kinds. Which groups mean
something depends on its kind.

A declaration takes from its base what it leaves unset. Groups of facets are taken as a whole, and
only in place of a group that sets nothing. The name of a type and its examples are never inherited.
-/

namespace Raml

/-- A part of a document that is carried along and never looked into. -/
abbrev Fragment := Json

/-- The upper bound of sizes that are not bounded. -/
def unbounded : Int64 := 2147483647

/-- Facets of scalars. -/
structure ScalarFacets where
  enumeration : List Value := []
  deriving Inhabited

def ScalarFacets.isEmpty (f : ScalarFacets) : Bool := f.enumeration.isEmpty

/-- Facets of strings. -/
structure StringFacets where
  pattern : String := ""
  minLength : Int64 := 0
  maxLength : Int64 := unbounded
  deriving DecidableEq, Inhabited

def StringFacets.isEmpty (f : StringFacets) : Bool :=
  f.pattern.isEmpty && f.minLength == 0 && f.maxLength == unbounded

/-- Facets of arrays. -/
structure ArrayFacets where
  uniqueItems : Bool := false
  items : Option Fragment := none
  minItems : Int64 := 0
  maxItems : Int64 := unbounded
  deriving Inhabited

def ArrayFacets.isEmpty (f : ArrayFacets) : Bool :=
  !f.uniqueItems && f.items.isNone && f.minItems == 0 && f.maxItems == unbounded

/-- Facets of files. -/
structure FileFacets where
  fileTypes : List String := []
  minLength : Int64 := 0
  maxLength : Int64 := unbounded
  deriving DecidableEq, Inhabited

def FileFacets.isEmpty (f : FileFacets) : Bool :=
  f.fileTypes.isEmpty && f.minLength == 0 && f.maxLength == unbounded

mutual

/-- An annotation as it is applied. -/
structure Annotation where
  value : Option Value
  name : String
  /-- The declaration that the name refers to, once it is known. -/
  declared : Option AnnotationType

/-- The declaration of an annotation. -/
structure AnnotationType where
  type : TypeNode
  allowedTargets : List Target

structure Example where
  displayName : String
  description : String
  annotations : List (String × Annotation)
  value : Option Value
  /-- Whether the value has to conform to its type. -/
  strict : Bool
  /-- Whether the value comes from a file; until that is read, it is the file's path. -/
  included : Bool
  /-- Whether that file has been read. -/
  loaded : Bool

/-- What a type declares apart from its facets. -/
structure Declaration where
  default? : Option Fragment
  schema : Option Fragment
  typeName : String
  example? : Option Example
  examples : List (String × Example)
  displayName : String
  description : String
  annotations : List (String × Annotation)
  facets : Option Fragment
  xml : Option Fragment

/-- Facets of objects. -/
structure ObjectFacets where
  properties : List (String × Property)
  minProperties : Option UInt64
  maxProperties : Option UInt64
  additionalProperties : Bool
  discriminator : Option String
  discriminatorValue : Option Fragment

structure Property where
  type : TypeNode
  required : Bool
  name : String

structure TypeNode where
  declaration : Declaration
  object : ObjectFacets
  scalar : ScalarFacets
  string : StringFacets
  array : ArrayFacets
  file : FileFacets
  /-- The name of the type without the brackets that make it an array. -/
  baseName : String
  isArray : Bool
  kind : Kind
  /-- Whether the type has inherited all that it inherits. -/
  resolved : Bool

end

abbrev Annotations := List (String × Annotation)
abbrev AnnotationTypes := List (String × AnnotationType)
abbrev Examples := List (String × Example)
abbrev Properties := List (String × Property)

/-- An annotation that has not been linked to its declaration. -/
def Annotation.ofValue (value : Option Value) : Annotation :=
  { value, name := "", declared := none }

instance : Inhabited Annotation := ⟨.ofValue none⟩

namespace Example

/-- An example without a value. -/
def empty : Example :=
  { displayName := "", description := "", annotations := [], value := none, strict := true
    included := false, loaded := false }

instance : Inhabited Example := ⟨empty⟩

def ofValue (value : Value) : Example := { empty with value := some value }

/-- An example whose value is in a file. -/
def ofPath (path : String) : Example :=
  { empty with value := some (.string path), included := true }

/-- The path of the file that has still to be read. -/
def pendingPath? (e : Example) : Option String :=
  if e.included && !e.loaded then e.value.bind Value.text? else none

end Example

/-- A declaration that sets nothing. -/
def Declaration.empty : Declaration :=
  { default? := none, schema := none, typeName := "", example? := none, examples := []
    displayName := "", description := "", annotations := [], facets := none, xml := none }

/-- The facets of an object that may have any properties. -/
def ObjectFacets.empty : ObjectFacets :=
  { properties := [], minProperties := none, maxProperties := none, additionalProperties := true
    discriminator := none, discriminatorValue := none }

def ObjectFacets.isEmpty (f : ObjectFacets) : Bool :=
  f.properties.isEmpty && f.minProperties.isNone && f.maxProperties.isNone
    && f.additionalProperties && f.discriminator.isNone && f.discriminatorValue.isNone

namespace TypeNode

/-- A type that sets nothing. -/
def empty : TypeNode :=
  { declaration := .empty, object := .empty, scalar := {}, string := {}, array := {}, file := {}
    baseName := "", isArray := false, kind := .any, resolved := false }

instance : Inhabited TypeNode := ⟨empty⟩

/-- The name under which the type was declared. -/
def typeName (t : TypeNode) : String := t.declaration.typeName

/-- Derives base name, array mark and kind from the type's name. -/
def deriveFromName (t : TypeNode) : TypeNode :=
  let (baseName, isArray) := TypeName.splitArray t.typeName
  { t with baseName, isArray, kind := .ofName baseName }

/-- Gives the type a name and what follows from it. -/
def setName (t : TypeNode) (name : String) : TypeNode :=
  { t with declaration := { t.declaration with typeName := name } }.deriveFromName

/-- A type that sets nothing but its name. -/
def ofName (name : String) : TypeNode := empty.setName name

/-- Whether the type is written in place, or not named at all. -/
def isInline (t : TypeNode) : Bool := TypeName.isInline t.typeName

/-- Whether the base of the type has to be looked up. -/
def needsLookup (t : TypeNode) : Bool := !t.isInline && !(Kind.ofName t.baseName).isBuiltIn

def properties (t : TypeNode) : Properties := t.object.properties

/-- The examples in order: first the single one. -/
def allExamples (t : TypeNode) : List Example :=
  t.declaration.example?.toList ++ t.declaration.examples.map (·.2)

def hasExamples (t : TypeNode) : Bool :=
  t.declaration.example?.isSome || !t.declaration.examples.isEmpty

/-- The same type with other properties. -/
def withProperties (t : TypeNode) (properties : Properties) : TypeNode :=
  { t with object := { t.object with properties } }

/-- Changes every example, in order. -/
def mapExamplesM {m : Type → Type} [Monad m] (f : Example → m Example) (t : TypeNode)
    : m TypeNode := do
  let example? ← t.declaration.example?.mapM f
  let examples ← t.declaration.examples.mapM fun (k, e) => do return (k, ← f e)
  return { t with declaration := { t.declaration with example?, examples } }

end TypeNode

namespace Property

/-- A required property of a named type. -/
def ofName (name typeName : String) : Property :=
  { type := .ofName typeName, required := true, name }

instance : Inhabited Property := ⟨ofName "" ""⟩

end Property

namespace AnnotationType

/-- A declaration that sets nothing. -/
def empty : AnnotationType := ⟨.empty, []⟩

instance : Inhabited AnnotationType := ⟨empty⟩

/-- Whether an annotation may be applied at a place that counts as any of `targets`. Without a list
of places it may be applied everywhere. -/
def allowsAny (a : AnnotationType) (targets : List Target) : Bool :=
  a.allowedTargets.isEmpty || targets.any a.allowedTargets.contains

end AnnotationType

namespace Annotation

/-- The name between the brackets of a key; other keys are names themselves. -/
def stripBrackets (key : String) : String :=
  match key.toList with
  | '(' :: rest =>
      match rest.reverse with
      | ')' :: inner => String.ofList inner.reverse
      | _ => key
  | _ => key

/-- Whether a key applies an annotation: a name between brackets. -/
def isKey (key : String) : Bool :=
  key.utf8ByteSize > 2 && key.startsWith "(" && key.endsWith ")"

end Annotation

/-- What the declaration leaves unset is taken from `base`. -/
def Declaration.inherit (d base : Declaration) : Declaration :=
  { d with
    default? := d.default?.or base.default?
    schema := d.schema.or base.schema
    displayName := if d.displayName.isEmpty then base.displayName else d.displayName
    description := if d.description.isEmpty then base.description else d.description
    annotations := Keyed.addMissing d.annotations base.annotations
    facets := d.facets.or base.facets
    xml := d.xml.or base.xml }

/-- What the type leaves unset is taken from `base`. Only arrays take the facets of arrays. -/
def TypeNode.inherit (t base : TypeNode) : TypeNode :=
  { t with
    declaration := t.declaration.inherit base.declaration
    object := if t.object.isEmpty then base.object else t.object
    scalar := if t.scalar.isEmpty then base.scalar else t.scalar
    string := if t.string.isEmpty then base.string else t.string
    array := if t.isArray && t.array.isEmpty then base.array else t.array
    file := if t.file.isEmpty then base.file else t.file
    kind := base.kind }

end Raml
