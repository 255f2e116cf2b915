import Raml.Document
import Raml.Proofs.Values

/-! The leaves of a document: what it says at each of its places, however deep they are.

A document is made of its leaves and of texts and numbers that nothing changes. What is demanded of
all leaves is an invariant, and what is done to a document can be said leaf by leaf. Of a document
that has been parsed, every leaf is sound.
-/

namespace Raml

inductive Leaf where
  /-- The name of a type, what follows from the name, and the kind of the type. -/
  | typeName (name baseName : String) (isArray : Bool) (kind : Kind)
  /-- The key and the name of a property. -/
  | property (key name : String)
  /-- The value of an example, which belongs to a type of some kind. -/
  | exampleValue (kind : Kind) (value : Option Value) (included loaded : Bool)
  | applied (key : String) (a : Annotation)
  /-- The name of the type of which the annotations of some declaration are. -/
  | annotationType (name : String)
  /-- A value of an enumeration. -/
  | enumValue (v : Value)
  | fragment (f : Option Fragment)
  /-- The keys of a table. -/
  | keys (keys : List String)
  | statuses (statuses : List UInt16)

-----------------------------------------------------------------------------------------
-- Types
-----------------------------------------------------------------------------------------

def Annotations.leaves (annotations : Annotations) : List Leaf :=
  .keys (Keyed.keys annotations) :: annotations.map fun (key, a) => .applied key a

def Example.leaves (kind : Kind) (e : Example) : List Leaf :=
  .exampleValue kind e.value e.included e.loaded :: Annotations.leaves e.annotations

def Examples.leaves (kind : Kind) (examples : Examples) : List Leaf :=
  .keys (Keyed.keys examples) :: examples.flatMap fun (_, e) => e.leaves kind

/-- The leaves of a declaration of a type of some kind. -/
def Declaration.leaves (kind : Kind) (d : Declaration) : List Leaf :=
  [.fragment d.default?, .fragment d.schema] ++ d.example?.toList.flatMap (Example.leaves kind)
    ++ Examples.leaves kind d.examples ++ Annotations.leaves d.annotations
    ++ [.fragment d.facets, .fragment d.xml]

/-- The leaves of a type but for those of its properties. -/
def TypeNode.ownLeaves (t : TypeNode) : List Leaf :=
  .typeName t.typeName t.baseName t.isArray t.kind :: t.declaration.leaves t.kind
    ++ t.scalar.enumeration.map .enumValue
    ++ [.fragment t.object.discriminatorValue, .fragment t.array.items]

mutual

def TypeNode.leaves : TypeNode → List Leaf
  | t@⟨_, ⟨properties, _, _, _, _, _⟩, _, _, _, _, _, _, _, _⟩ =>
      t.ownLeaves ++ .keys (Keyed.keys properties) :: propertyLeaves properties

def Property.leaves (key : String) : Property → List Leaf
  | ⟨type, _, name⟩ => .property key name :: type.leaves

def propertyLeaves : List (String × Property) → List Leaf
  | [] => []
  | (key, p) :: properties => p.leaves key ++ propertyLeaves properties

end

/-- The leaves of a table of properties. -/
def Properties.leaves (properties : Properties) : List Leaf :=
  .keys (Keyed.keys properties) :: propertyLeaves properties

/-- The leaves of a type are its own ones and those of its properties. -/
theorem TypeNode.leaves_eq (t : TypeNode)
    : t.leaves = t.ownLeaves ++ Properties.leaves t.properties := by
  obtain ⟨_, ⟨_, _, _, _, _, _⟩, _, _, _, _, _, _, _, _⟩ := t
  rfl

theorem Property.leaves_eq (key : String) (p : Property)
    : p.leaves key = .property key p.name :: p.type.leaves := by
  cases p
  rfl

theorem propertyLeaves_eq (properties : Properties)
    : propertyLeaves properties
      = properties.flatMap fun (key, p) => .property key p.name :: p.type.leaves := by
  induction properties with
  | nil => rfl
  | cons entry properties ih => simp [propertyLeaves, Property.leaves_eq, ih]

-----------------------------------------------------------------------------------------
-- Methods and resources
-----------------------------------------------------------------------------------------

def Bodies.leaves (bodies : Bodies) : List Leaf :=
  .keys (Keyed.keys bodies) :: bodies.flatMap fun (_, t) => t.leaves

def Response.leaves (r : Response) : List Leaf :=
  Annotations.leaves r.annotations ++ Properties.leaves r.headers ++ Bodies.leaves r.bodies

def Responses.leaves (responses : Responses) : List Leaf :=
  .statuses (responses.map (·.1)) :: responses.flatMap fun (_, r) => r.leaves

mutual

def Method.leaves : Method → List Leaf
  | ⟨_, _, annotations, queryParameters, headers, queryString, responses, bodies, _, is, securedBy,
      _⟩ =>
      Annotations.leaves annotations ++ Properties.leaves queryParameters
        ++ Properties.leaves headers ++ .fragment queryString :: Responses.leaves responses
        ++ Bodies.leaves bodies ++ traitLeaves is ++ [.fragment securedBy]

def Trait.leaves : Trait → List Leaf
  | ⟨_, method, _, _, _, _, _⟩ => method.leaves

def traitLeaves : List Trait → List Leaf
  | [] => []
  | t :: traits => t.leaves ++ traitLeaves traits

end

theorem traitLeaves_eq (traits : List Trait) : traitLeaves traits = traits.flatMap Trait.leaves := by
  induction traits with
  | nil => rfl
  | cons t traits ih => simp [traitLeaves, ih]

theorem Trait.leaves_eq (t : Trait) : t.leaves = t.method.leaves := by
  cases t
  rfl

/-- The leaves of a method, part by part. Traits that it uses have methods of their own. -/
theorem Method.leaves_eq (m : Method)
    : m.leaves
      = Annotations.leaves m.annotations ++ Properties.leaves m.queryParameters
        ++ Properties.leaves m.headers ++ .fragment m.queryString :: Responses.leaves m.responses
        ++ Bodies.leaves m.bodies ++ traitLeaves m.is ++ [.fragment m.securedBy] := by
  cases m
  rfl

/-- The leaves of the methods of a resource. -/
def methodLeaves (methods : List (String × Method)) : List Leaf :=
  .keys (Keyed.keys methods) :: methods.flatMap fun (_, m) => m.leaves

mutual

def Resource.leaves : Resource → List Leaf
  | ⟨_, _, annotations, methods, is, type, securedBy, uriParameters, resources⟩ =>
      Annotations.leaves annotations ++ methodLeaves methods ++ traitLeaves is
        ++ [.fragment type, .fragment securedBy] ++ Properties.leaves uriParameters
        ++ .keys (Keyed.keys resources) :: resourceLeaves resources

def resourceLeaves : List (String × Resource) → List Leaf
  | [] => []
  | (_, r) :: resources => r.leaves ++ resourceLeaves resources

end

/-- The leaves of a table of resources. -/
def Resources.leaves (resources : Resources) : List Leaf :=
  .keys (Keyed.keys resources) :: resourceLeaves resources

theorem resourceLeaves_eq (resources : Resources)
    : resourceLeaves resources = resources.flatMap fun (_, r) => r.leaves := by
  induction resources with
  | nil => rfl
  | cons entry resources ih => simp [resourceLeaves, ih]

/-- The leaves of a resource, part by part, with those of the resources below. -/
theorem Resource.leaves_eq (r : Resource)
    : r.leaves
      = Annotations.leaves r.annotations ++ methodLeaves r.methods ++ traitLeaves r.is
        ++ [.fragment r.type, .fragment r.securedBy] ++ Properties.leaves r.uriParameters
        ++ Resources.leaves r.resources := by
  cases r
  rfl

-----------------------------------------------------------------------------------------
-- Libraries and documents
-----------------------------------------------------------------------------------------

def Types.leaves (types : Types) : List Leaf :=
  .keys (Keyed.keys types) :: types.flatMap fun (_, t) => t.leaves

/-- The leaves of declarations of traits. -/
def Traits.leaves (traits : Traits) : List Leaf :=
  .keys (Keyed.keys traits) :: traits.flatMap fun (_, t) => t.leaves

def AnnotationType.leaves (a : AnnotationType) : List Leaf :=
  .annotationType a.type.typeName :: a.type.leaves

def AnnotationTypes.leaves (types : AnnotationTypes) : List Leaf :=
  .keys (Keyed.keys types) :: types.flatMap fun (_, a) => a.leaves

/-- The leaves of a library itself, without those of the libraries that it uses. -/
def Library.ownLeaves (l : Library) : List Leaf :=
  .fragment l.schemas :: Types.leaves l.types ++ Traits.leaves l.traits
    ++ .fragment l.resourceTypes :: AnnotationTypes.leaves l.annotationTypes
    ++ Annotations.leaves l.annotations
    ++ [.fragment l.securitySchemes, .keys (Keyed.keys l.uses)]

mutual

/-- The leaves of a library and of those that it uses, each with the library around it. -/
def Library.leaves : Library → List (Library × Leaf)
  | l@⟨_, _, _, _, _, _, _, _, uses, _⟩ => l.ownLeaves.map (l, ·) ++ useLeaves uses

def Use.leaves : Use → List (Library × Leaf)
  | .external _ => []
  | .loaded library => library.leaves

def useLeaves : List (String × Use) → List (Library × Leaf)
  | [] => []
  | (_, use) :: uses => use.leaves ++ useLeaves uses

end

/-- The leaves of a library itself stand in it, and others in the libraries that it uses. -/
theorem Library.leaves_eq (l : Library)
    : l.leaves = l.ownLeaves.map (l, ·) ++ useLeaves l.uses := by
  cases l
  rfl

theorem useLeaves_eq (uses : Uses) : useLeaves uses = uses.flatMap fun (_, use) => use.leaves := by
  induction uses with
  | nil => rfl
  | cons entry uses ih => simp [useLeaves, ih]

/-- The leaves of a document outside its library. -/
def Document.outerLeaves (d : Document) : List Leaf :=
  Properties.leaves d.baseUriParameters ++ .fragment d.securedBy :: Resources.leaves d.resources

/-- The leaves of a document, each with the library around it. -/
def Document.leaves (d : Document) : List (Library × Leaf) :=
  d.library.leaves ++ d.outerLeaves.map (d.library, ·)

/-- The leaves of a library and of those that it uses, wherever they stand. -/
def Library.allLeaves (l : Library) : List Leaf := l.leaves.map (·.2)

/-- The leaves of a document, wherever they stand. -/
def Document.allLeaves (d : Document) : List Leaf := d.leaves.map (·.2)

-----------------------------------------------------------------------------------------
-- Sound leaves
-----------------------------------------------------------------------------------------

/-- What follows from the name of a type follows, the kind too if the type is written in place. A
property is named by its key, no key stands twice in a table, and fragments are what is written of
values. -/
@[simp] def Leaf.Sound : Leaf → Prop
  | .typeName name baseName isArray kind =>
      TypeName.splitArray name = (baseName, isArray) ∧ Kind.ofName kind.name = kind
        ∧ (TypeName.isInline name = true → kind = .ofName baseName)
  | .property key name => name = key
  | .exampleValue _ value _ _ => ∀ v ∈ value, v.Regular
  | .applied _ a => ∀ v ∈ a.value, v.Regular
  | .annotationType _ => True
  | .enumValue v => v.Regular
  | .fragment f => ∀ j ∈ f, ∃ v : Value, v.Regular ∧ v.toJson = j
  | .keys names => names.Nodup
  | .statuses found => found.Nodup

end Raml
