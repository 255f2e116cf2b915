import Raml.Document

/-! Documents and their parts as JSON. What has its default is left out. -/

namespace Raml

namespace Form

abbrev Members := List (String × Json)

/-- A member, unless there is nothing to write. -/
def optional (key : String) (value : Option Json) : Members := (value.map (key, ·)).toList

/-- A member that holds text, unless that is empty. -/
def text (key s : String) : Members := if s.isEmpty then [] else [(key, .str s)]

/-- A member that holds a truth value, unless that is the default. -/
def flag (key : String) (default value : Bool) : Members :=
  if value = default then [] else [(key, .bool value)]

/-- A member that holds a whole number, unless that is the default. -/
def number (key : String) (default value : Int64) : Members :=
  if value = default then [] else [(key, .int value.toInt)]

/-- A member that holds a list, unless that is empty. -/
def list (key : String) (items : List Json) : Members :=
  if items.isEmpty then [] else [(key, .arr items)]

/-- A member that holds an object, unless that is empty. -/
def map (key : String) (members : Members) : Members :=
  if members.isEmpty then [] else [(key, .obj members)]

/-- A member that holds a list of texts, unless that is empty. -/
def texts (key : String) (items : List String) : Members := list key (items.map .str)

end Form

open Form

def Annotation.toJson (a : Annotation) : Json :=
  match a.value with
  | some value => value.toJson
  | none => .null

/-- The member that holds annotations. -/
def Annotations.members (annotations : Annotations) : Members :=
  map "annotations" (annotations.map fun (name, a) => (name, a.toJson))

def Example.toJson (e : Example) : Json :=
  .obj (text "displayName" e.displayName ++ text "description" e.description
    ++ Annotations.members e.annotations ++ optional "value" (e.value.map Value.toJson)
    ++ flag "strict" true e.strict ++ flag "includeTag" false e.included)

def Declaration.members (d : Declaration) : Members :=
  optional "default" d.default? ++ optional "schema" d.schema ++ text "type" d.typeName
    ++ optional "example" (d.example?.map Example.toJson)
    ++ map "examples" (d.examples.map fun (name, e) => (name, e.toJson))
    ++ text "displayName" d.displayName ++ text "description" d.description
    ++ Annotations.members d.annotations ++ optional "facets" d.facets ++ optional "xml" d.xml

/-- The members of the object group but for the properties. -/
def ObjectFacets.boundMembers (f : ObjectFacets) : Members :=
  optional "minProperties" (f.minProperties.map fun n => .int n.toNat)
    ++ optional "maxProperties" (f.maxProperties.map fun n => .int n.toNat)
    ++ flag "additionalProperties" true f.additionalProperties
    ++ optional "discriminator" (f.discriminator.map .str)
    ++ optional "discriminatorValue" f.discriminatorValue

def ArrayFacets.members (f : ArrayFacets) : Members :=
  flag "uniqueItems" false f.uniqueItems ++ optional "items" f.items
    ++ number "minItems" 0 f.minItems ++ number "maxItems" unbounded f.maxItems

/-- The bounds of a length, from the group that owns them: files have their own. -/
def TypeNode.lengthBounds (t : TypeNode) : Int64 × Int64 :=
  match t.kind with
  | .file => (t.file.minLength, t.file.maxLength)
  | _ => (t.string.minLength, t.string.maxLength)

/-- The members behind the object group. -/
def TypeNode.facetMembers (t : TypeNode) : Members :=
  list "enum" (t.scalar.enumeration.map Value.toJson) ++ text "pattern" t.string.pattern
    ++ t.array.members ++ texts "fileTypes" t.file.fileTypes
    ++ number "minLength" 0 t.lengthBounds.1 ++ number "maxLength" unbounded t.lengthBounds.2
    ++ if t.kind = .any then [] else [("nativeType", .str t.kind.name)]

mutual

def TypeNode.members : TypeNode → Members
  | t@⟨declaration, ⟨properties, _, _, _, _, _⟩, _, _, _, _, _, _, _, _⟩ =>
      declaration.members ++ map "properties" (propertyMembers properties)
        ++ t.object.boundMembers ++ t.facetMembers

def Property.members : Property → Members
  | ⟨type, required, _⟩ => type.members ++ flag "required" true required

def propertyMembers : List (String × Property) → Members
  | [] => []
  | (key, p) :: properties => (key, .obj p.members) :: propertyMembers properties

end

def TypeNode.toJson (t : TypeNode) : Json := .obj t.members

def Property.toJson (p : Property) : Json := .obj p.members

def AnnotationType.toJson (a : AnnotationType) : Json :=
  .obj (a.type.members ++ texts "allowedTargets" (a.allowedTargets.map Target.name))

def Bodies.members (bodies : Bodies) : Members :=
  map "body" (bodies.map fun (mediaType, t) => (mediaType, t.toJson))

def Response.toJson (r : Response) : Json :=
  .obj (text "description" r.description ++ Annotations.members r.annotations
    ++ map "headers" (propertyMembers r.headers) ++ Bodies.members r.bodies)

def responseMembers (responses : Responses) : Members :=
  responses.map fun (status, r) => (toString status.toNat, r.toJson)

mutual

def Method.members : Method → Members
  | ⟨displayName, description, annotations, queryParameters, headers, queryString, responses,
      bodies, protocols, is, securedBy, _⟩ =>
      text "displayName" displayName ++ text "description" description
        ++ Annotations.members annotations
        ++ map "queryParameters" (propertyMembers queryParameters)
        ++ map "headers" (propertyMembers headers) ++ optional "queryString" queryString
        ++ map "responses" (responseMembers responses) ++ Bodies.members bodies
        ++ texts "protocols" protocols ++ list "is" (traitItems is)
        ++ optional "securedBy" securedBy

def Trait.members : Trait → Members
  | ⟨reference, method, usage, resourcePath, resourcePathName, methodName, _⟩ =>
      text "name" reference ++ method.members ++ text "usage" usage
        ++ text "resourcePath" resourcePath ++ text "resourcePathName" resourcePathName
        ++ text "methodName" methodName

def traitItems : List Trait → List Json
  | [] => []
  | t :: traits => .obj t.members :: traitItems traits

end

def Method.toJson (m : Method) : Json := .obj m.members

def Trait.toJson (t : Trait) : Json := .obj t.members

mutual

def Library.members : Library → Members
  | ⟨usage, schemas, types, traits, resourceTypes, annotationTypes, annotations, securitySchemes,
      uses, _⟩ =>
      text "usage" usage ++ optional "schemas" schemas
        ++ map "types" (types.map fun (name, t) => (name, t.toJson))
        ++ map "traits" (traits.map fun (name, t) => (name, t.toJson))
        ++ optional "resourceTypes" resourceTypes
        ++ map "annotationTypes" (annotationTypes.map fun (name, a) => (name, a.toJson))
        ++ Annotations.members annotations ++ optional "securitySchemes" securitySchemes
        ++ map "uses" (useMembers uses)

def Use.toJson : Use → Json
  | .external path => .str path
  | .loaded library => .obj library.members

def useMembers : List (String × Use) → Members
  | [] => []
  | (name, use) :: uses => (name, use.toJson) :: useMembers uses

end

def Library.toJson (l : Library) : Json := .obj l.members

mutual

def Resource.toJson : Resource → Json
  | ⟨displayName, description, annotations, methods, is, type, securedBy, uriParameters,
      resources⟩ =>
      .obj (text "displayName" displayName ++ text "description" description
        ++ Annotations.members annotations
        ++ map "methods" (methods.map fun (name, m) => (name, m.toJson))
        ++ list "is" (traitItems is) ++ optional "type" type ++ optional "securedBy" securedBy
        ++ map "uriParameters" (propertyMembers uriParameters)
        ++ map "resources" (resourceMembers resources))

def resourceMembers : List (String × Resource) → Members
  | [] => []
  | (key, r) :: resources => (key, r.toJson) :: resourceMembers resources

end

def DocumentationItem.toJson (d : DocumentationItem) : Json :=
  .obj [("title", .str d.title), ("content", .str d.content)]

def Document.toJson (d : Document) : Json :=
  .obj (("title", .str d.title) :: text "description" d.description ++ text "version" d.version
    ++ text "baseUri" d.baseUri
    ++ map "baseUriParameters" (propertyMembers d.baseUriParameters)
    ++ texts "protocols" d.protocols ++ texts "mediaType" d.mediaType
    ++ list "documentation" (d.documentation.map DocumentationItem.toJson)
    ++ optional "securedBy" d.securedBy ++ d.library.members
    ++ map "resources" (resourceMembers d.resources))

end Raml
