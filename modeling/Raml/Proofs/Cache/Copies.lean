import Raml.Proofs.Values
import Raml.Proofs.Documents.Leaves

/-! Copies of documents that differ in their leaves.

A copy has been written and read. What its leaves are depends on how far it has been restored. It
has lost from which files its libraries and traits come, and null stands for what is not there.
-/

namespace Raml

/-- What the leaves of a copy are made of. -/
structure Copying where
  /-- The base name and the array mark of a type, given its name. -/
  names : String → String × Bool
  resolved : Bool
  /-- The facets of strings and files, given those of a type of some kind. -/
  lengths : Kind → StringFacets → FileFacets → StringFacets × FileFacets
  /-- The name of a property, given its key. -/
  property : String → String
  applied : String → Annotation → Annotation
  /-- The value of an example of a type of some kind, given whether a file is its origin. -/
  value : Kind → Bool → Value → Option Value
  /-- Whether an example has been read, given whether a file is its origin. -/
  loaded : Bool → Bool

/-- The leaf of a copy. -/
def Copying.leaf (w : Copying) : Leaf → Leaf
  | .typeName name _ _ kind => .typeName name (w.names name).1 (w.names name).2 kind
  | .property key _ => .property key (w.property key)
  | .exampleValue kind value included _ =>
      .exampleValue kind (value.bind (w.value kind included)) included (w.loaded included)
  | .applied key a => .applied key (w.applied key a)
  | .enumValue v => .enumValue v.reread
  | .fragment f => .fragment (Fragment.kept f)
  | leaf => leaf

variable (w : Copying)

-----------------------------------------------------------------------------------------
-- Types
-----------------------------------------------------------------------------------------

def Annotations.copy (annotations : Annotations) : Annotations :=
  annotations.map fun (key, a) => (key, w.applied key a)

def Example.copy (kind : Kind) (e : Example) : Example :=
  { e with
    annotations := Annotations.copy w e.annotations
    value := e.value.bind (w.value kind e.included)
    loaded := w.loaded e.included }

def Declaration.copy (kind : Kind) (d : Declaration) : Declaration :=
  { d with
    default? := Fragment.kept d.default?
    schema := Fragment.kept d.schema
    example? := d.example?.map (Example.copy w kind)
    examples := Keyed.mapValues (Example.copy w kind) d.examples
    annotations := Annotations.copy w d.annotations
    facets := Fragment.kept d.facets
    xml := Fragment.kept d.xml }

/-- The copy of a type but for its properties. -/
def TypeNode.copyOwn (t : TypeNode) : TypeNode :=
  { t with
    declaration := t.declaration.copy w t.kind
    object := { t.object with discriminatorValue := Fragment.kept t.object.discriminatorValue }
    scalar := ⟨t.scalar.enumeration.map Value.reread⟩
    string := (w.lengths t.kind t.string t.file).1
    array := { t.array with items := Fragment.kept t.array.items }
    file := (w.lengths t.kind t.string t.file).2
    baseName := (w.names t.typeName).1
    isArray := (w.names t.typeName).2
    resolved := w.resolved }

mutual

def TypeNode.copy : TypeNode → TypeNode
  | t@⟨_, ⟨properties, _, _, _, _, _⟩, _, _, _, _, _, _, _, _⟩ =>
      (t.copyOwn w).withProperties (copyProperties properties)

def Property.copy (key : String) : Property → Property
  | ⟨type, required, _⟩ => ⟨type.copy, required, w.property key⟩

def copyProperties : List (String × Property) → List (String × Property)
  | [] => []
  | (key, p) :: properties => (key, p.copy key) :: copyProperties properties

end

/-- A type is copied but for its properties, and these are put in place. -/
theorem TypeNode.copy_eq (t : TypeNode)
    : t.copy w = (t.copyOwn w).withProperties (copyProperties w t.properties) := by
  obtain ⟨_, ⟨_, _, _, _, _, _⟩, _, _, _, _, _, _, _, _⟩ := t
  rfl

theorem Property.copy_eq (key : String) (p : Property)
    : p.copy w key = ⟨p.type.copy w, p.required, w.property key⟩ := by
  cases p
  rfl

theorem copyProperties_eq (properties : Properties)
    : copyProperties w properties = properties.map fun (key, p) => (key, p.copy w key) := by
  induction properties with
  | nil => rfl
  | cons entry properties ih => simp [copyProperties, ih]

-----------------------------------------------------------------------------------------
-- Methods and resources
-----------------------------------------------------------------------------------------

def Response.copy (r : Response) : Response :=
  { r with
    annotations := Annotations.copy w r.annotations
    headers := copyProperties w r.headers
    bodies := Keyed.mapValues (TypeNode.copy w) r.bodies }

def Responses.copy (responses : Responses) : Responses :=
  responses.map fun (status, r) => (status, r.copy w)

mutual

def Method.copy : Method → Method
  | ⟨displayName, description, annotations, queryParameters, headers, queryString, responses,
      bodies, protocols, is, securedBy, _⟩ =>
      { displayName, description, annotations := Annotations.copy w annotations
        queryParameters := copyProperties w queryParameters, headers := copyProperties w headers
        queryString := Fragment.kept queryString, responses := Responses.copy w responses
        bodies := Keyed.mapValues (TypeNode.copy w) bodies, protocols, is := copyTraits is
        securedBy := Fragment.kept securedBy, unexpected := [] }

def Trait.copy : Trait → Trait
  | ⟨reference, method, usage, resourcePath, resourcePathName, methodName, _⟩ =>
      ⟨reference, method.copy, usage, resourcePath, resourcePathName, methodName, none⟩

def copyTraits : List Trait → List Trait
  | [] => []
  | t :: traits => t.copy :: copyTraits traits

end

mutual

def Resource.copy : Resource → Resource
  | ⟨displayName, description, annotations, methods, is, type, securedBy, uriParameters,
      resources⟩ =>
      { displayName, description, annotations := Annotations.copy w annotations
        methods := Keyed.mapValues (Method.copy w) methods, is := copyTraits w is
        type := Fragment.kept type, securedBy := Fragment.kept securedBy
        uriParameters := copyProperties w uriParameters, resources := copyResources resources }

def copyResources : List (String × Resource) → List (String × Resource)
  | [] => []
  | (key, r) :: resources => (key, r.copy) :: copyResources resources

end

theorem copyResources_eq (resources : Resources)
    : copyResources w resources = Keyed.mapValues (Resource.copy w) resources := by
  induction resources with
  | nil => rfl
  | cons entry resources ih => simp [copyResources, ih, Keyed.mapValues]

-----------------------------------------------------------------------------------------
-- Libraries and documents
-----------------------------------------------------------------------------------------

def AnnotationType.copy (a : AnnotationType) : AnnotationType := { a with type := a.type.copy w }

/-- The copy of a library, given those of the libraries that it uses. -/
def Library.copyOwn (l : Library) (uses : Uses) : Library :=
  { l with
    schemas := Fragment.kept l.schemas
    types := Keyed.mapValues (TypeNode.copy w) l.types
    traits := Keyed.mapValues (Trait.copy w) l.traits
    resourceTypes := Fragment.kept l.resourceTypes
    annotationTypes := Keyed.mapValues (AnnotationType.copy w) l.annotationTypes
    annotations := Annotations.copy w l.annotations
    securitySchemes := Fragment.kept l.securitySchemes
    uses
    location := none }

/-- How what stands in a library is copied. -/
abbrev CopyingIn := Library → Copying

variable (W : CopyingIn)

mutual

def Library.copy : Library → Library
  | l@⟨_, _, _, _, _, _, _, _, uses, _⟩ => l.copyOwn (W l) (copyUses uses)

def Use.copy : Use → Use
  | .external path => .external path
  | .loaded library => .loaded library.copy

def copyUses : List (String × Use) → List (String × Use)
  | [] => []
  | (name, use) :: uses => (name, use.copy) :: copyUses uses

end

/-- A library is copied but for those that it uses, and these are put in place. -/
theorem Library.copy_eq (l : Library) : l.copy W = l.copyOwn (W l) (copyUses W l.uses) := by
  cases l
  rfl

theorem copyUses_eq (uses : Uses) : copyUses W uses = Keyed.mapValues (Use.copy W) uses := by
  induction uses with
  | nil => rfl
  | cons entry uses ih => simp [copyUses, ih, Keyed.mapValues]

/-- A copy has still to be given a directory. -/
def Document.copy (d : Document) : Document :=
  { d with
    baseUriParameters := copyProperties (W d.library) d.baseUriParameters
    securedBy := Fragment.kept d.securedBy
    library := d.library.copy W
    resources := copyResources (W d.library) d.resources
    directory := ⟨""⟩ }

-----------------------------------------------------------------------------------------
-- The leaves of copies
-----------------------------------------------------------------------------------------

/-- The leaves of copied annotations are copies of theirs. So it is for every part of a document. -/
theorem Annotations.leaves_copy (annotations : Annotations)
    : Annotations.leaves (Annotations.copy w annotations)
      = (Annotations.leaves annotations).map w.leaf := by
  simp [leaves, copy, Copying.leaf, Keyed.keys, Function.comp_def]

theorem Example.leaves_copy (kind : Kind) (e : Example)
    : (e.copy w kind).leaves kind = (e.leaves kind).map w.leaf := by
  simp [leaves, copy, Copying.leaf, Annotations.leaves_copy]

theorem Declaration.leaves_copy (kind : Kind) (d : Declaration)
    : (d.copy w kind).leaves kind = (d.leaves kind).map w.leaf := by
  have single : (d.example?.map (Example.copy w kind)).toList.flatMap (Example.leaves kind)
      = (d.example?.toList.flatMap (Example.leaves kind)).map w.leaf := by
    cases d.example? <;> simp [Example.leaves_copy]
  have named : Examples.leaves kind (Keyed.mapValues (Example.copy w kind) d.examples)
      = (Examples.leaves kind d.examples).map w.leaf := by
    simp [Examples.leaves, Copying.leaf, Keyed.keys, Keyed.mapValues, List.flatMap_map,
      List.map_flatMap, Example.leaves_copy, Function.comp_def]
  simp only [leaves, copy, single, named, Annotations.leaves_copy, List.map_append, List.map_cons,
    List.map_nil]
  rfl

/-- Apart from properties, the leaves of a copied type are those of the type, copied one by one. -/
theorem TypeNode.ownLeaves_copyOwn (t : TypeNode)
    : (t.copyOwn w).ownLeaves = t.ownLeaves.map w.leaf := by
  have declared : (t.copyOwn w).declaration.leaves t.kind
      = (t.declaration.leaves t.kind).map w.leaf :=
    t.declaration.leaves_copy w t.kind
  have values : ((t.scalar.enumeration.map Value.reread).map Leaf.enumValue)
      = (t.scalar.enumeration.map Leaf.enumValue).map w.leaf := by
    simp [Copying.leaf, Function.comp_def]
  rw [ownLeaves, ownLeaves, List.map_append, List.cons_append, List.map_append, List.map_cons,
    ← declared, ← values]
  rfl

@[simp] theorem keys_copyProperties (properties : Properties)
    : Keyed.keys (copyProperties w properties) = Keyed.keys properties := by
  simp [copyProperties_eq, Keyed.keys, Function.comp_def]

/-- The leaves of a type are copied if those of its properties are. -/
theorem TypeNode.leaves_copy_of (t : TypeNode)
    (inside : propertyLeaves (copyProperties w t.properties)
      = (propertyLeaves t.properties).map w.leaf)
    : (t.copy w).leaves = t.leaves.map w.leaf := by
  have own : (t.copy w).ownLeaves = t.ownLeaves.map w.leaf := by
    rw [copy_eq, ← ownLeaves_copyOwn]
    rfl
  have below : (t.copy w).properties = copyProperties w t.properties := by
    rw [copy_eq]
    rfl
  rw [leaves_eq, own, below, Properties.leaves, keys_copyProperties, inside, leaves_eq,
    List.map_append]
  rfl

mutual

/-- By induction on types and their properties. -/
theorem TypeNode.leaves_copy : ∀ t : TypeNode, (t.copy w).leaves = t.leaves.map w.leaf
  | ⟨_, ⟨properties, _, _, _, _, _⟩, _, _, _, _, _, _, _, _⟩ =>
      TypeNode.leaves_copy_of w _ (propertyLeaves_copy properties)

theorem Property.leaves_copy (key : String)
    : ∀ p : Property, (p.copy w key).leaves key = (p.leaves key).map w.leaf
  | ⟨type, _, _⟩ => by
      have inside := TypeNode.leaves_copy type
      simp only [Property.copy, Property.leaves, inside, List.map_cons]
      rfl

theorem propertyLeaves_copy
    : ∀ properties : List (String × Property),
      propertyLeaves (copyProperties w properties) = (propertyLeaves properties).map w.leaf
  | [] => rfl
  | (key, p) :: properties => by
      have first := Property.leaves_copy key p
      have rest := propertyLeaves_copy properties
      simp only [copyProperties, propertyLeaves, first, rest, List.map_append]

end

theorem Properties.leaves_copy (properties : Properties)
    : Properties.leaves (copyProperties w properties)
      = (Properties.leaves properties).map w.leaf := by
  simp [leaves, propertyLeaves_copy, Copying.leaf]

/-- The leaves of a table are those of its values. -/
theorem leaves_mapValues {α : Type} {f : α → α} {leaves : α → List Leaf}
    (each : ∀ a, leaves (f a) = (leaves a).map w.leaf) (table : Keyed α)
    : (Keyed.mapValues f table).flatMap (fun (_, a) => leaves a)
      = (table.flatMap fun (_, a) => leaves a).map w.leaf := by
  simp [Keyed.mapValues, List.flatMap_map, List.map_flatMap, each]

theorem Bodies.leaves_copy (bodies : Bodies)
    : Bodies.leaves (Keyed.mapValues (TypeNode.copy w) bodies)
      = (Bodies.leaves bodies).map w.leaf := by
  simp [leaves, leaves_mapValues w (TypeNode.leaves_copy w), Copying.leaf]

theorem Response.leaves_copy (r : Response) : (r.copy w).leaves = r.leaves.map w.leaf := by
  simp [leaves, copy, Annotations.leaves_copy, Properties.leaves_copy, Bodies.leaves_copy]

theorem Responses.leaves_copy (responses : Responses)
    : Responses.leaves (Responses.copy w responses)
      = (Responses.leaves responses).map w.leaf := by
  simp [leaves, copy, List.flatMap_map, List.map_flatMap, Response.leaves_copy, Copying.leaf,
    Function.comp_def]

mutual

/-- By induction on methods and the traits that they use. -/
theorem Method.leaves_copy : ∀ m : Method, (m.copy w).leaves = m.leaves.map w.leaf
  | ⟨_, _, _, _, _, _, _, _, _, is, _, _⟩ => by
      have uses := traitLeaves_copy is
      simp only [Method.copy, Method.leaves, Annotations.leaves_copy, Properties.leaves_copy,
        Responses.leaves_copy, Bodies.leaves_copy, uses, List.map_append, List.map_cons,
        List.map_nil]
      rfl

theorem Trait.leaves_copy : ∀ t : Trait, (t.copy w).leaves = t.leaves.map w.leaf
  | ⟨_, method, _, _, _, _, _⟩ => Method.leaves_copy method

theorem traitLeaves_copy
    : ∀ traits : List Trait, traitLeaves (copyTraits w traits) = (traitLeaves traits).map w.leaf
  | [] => rfl
  | t :: traits => by
      have first := Trait.leaves_copy t
      have rest := traitLeaves_copy traits
      simp only [copyTraits, traitLeaves, first, rest, List.map_append]

end

mutual

/-- By induction on resources and those below them. -/
theorem Resource.leaves_copy : ∀ r : Resource, (r.copy w).leaves = r.leaves.map w.leaf
  | ⟨_, _, _, methods, _, _, _, _, resources⟩ => by
      have own : methodLeaves (Keyed.mapValues (Method.copy w) methods)
          = (methodLeaves methods).map w.leaf := by
        simp [methodLeaves, leaves_mapValues w (Method.leaves_copy w), Copying.leaf]
      have keys : Keyed.keys (copyResources w resources) = Keyed.keys resources := by
        simp [copyResources_eq]
      have below := resourceLeaves_copy resources
      simp only [Resource.copy, Resource.leaves, Annotations.leaves_copy, own, traitLeaves_copy,
        Properties.leaves_copy, keys, below, List.map_append, List.map_cons, List.map_nil]
      rfl

theorem resourceLeaves_copy
    : ∀ resources : List (String × Resource),
      resourceLeaves (copyResources w resources) = (resourceLeaves resources).map w.leaf
  | [] => rfl
  | (_, r) :: resources => by
      have first := Resource.leaves_copy r
      have rest := resourceLeaves_copy resources
      simp only [copyResources, resourceLeaves, first, rest, List.map_append]

end

theorem Resources.leaves_copy (resources : Resources)
    : Resources.leaves (copyResources w resources) = (Resources.leaves resources).map w.leaf := by
  have keys : Keyed.keys (copyResources w resources) = Keyed.keys resources := by
    simp [copyResources_eq]
  simp [leaves, resourceLeaves_copy, keys, Copying.leaf]

theorem AnnotationType.leaves_copy (a : AnnotationType) : (a.copy w).leaves = a.leaves.map w.leaf := by
  have name : (a.type.copy w).typeName = a.type.typeName := by
    rw [TypeNode.copy_eq]
    rfl
  simp [leaves, copy, name, TypeNode.leaves_copy, Copying.leaf]

/-- The leaves of a library itself do not depend on the libraries that it uses, but for their names.
-/
theorem Library.ownLeaves_copyOwn (l : Library) {uses : Uses}
    (same : Keyed.keys uses = Keyed.keys l.uses)
    : (l.copyOwn w uses).ownLeaves = l.ownLeaves.map w.leaf := by
  simp only [ownLeaves, copyOwn, Types.leaves, Traits.leaves, AnnotationTypes.leaves,
    Annotations.leaves_copy, Keyed.keys_mapValues, leaves_mapValues w (TypeNode.leaves_copy w),
    leaves_mapValues w (Trait.leaves_copy w), leaves_mapValues w (AnnotationType.leaves_copy w),
    same, List.map_append, List.map_cons, List.map_nil]
  rfl

/-- A leaf of a copy, and the copy of the library around it. -/
def CopyingIn.leaf (W : CopyingIn) (entry : Library × Leaf) : Library × Leaf :=
  (entry.1.copy W, (W entry.1).leaf entry.2)

/-- The leaves of a library are copied if those of the libraries that it uses are. -/
theorem Library.leaves_copy_of (l : Library)
    (used : useLeaves (copyUses W l.uses) = (useLeaves l.uses).map W.leaf)
    : (l.copy W).leaves = l.leaves.map W.leaf := by
  have keys : Keyed.keys (copyUses W l.uses) = Keyed.keys l.uses := by simp [copyUses_eq]
  have own : (l.copy W).ownLeaves = l.ownLeaves.map (W l).leaf := by
    rw [copy_eq, l.ownLeaves_copyOwn (W l) keys]
  have below : (l.copy W).uses = copyUses W l.uses := by
    rw [copy_eq]
    rfl
  rw [leaves_eq, own, below, used, leaves_eq, List.map_append, List.map_map, List.map_map]
  rfl

mutual

/-- By induction on libraries, each of whose leaves is copied as the library says. -/
theorem Library.leaves_copy : ∀ l : Library, (l.copy W).leaves = l.leaves.map W.leaf
  | ⟨_, _, _, _, _, _, _, _, uses, _⟩ => Library.leaves_copy_of W _ (useLeaves_copy uses)

theorem Use.leaves_copy : ∀ use : Use, (use.copy W).leaves = use.leaves.map W.leaf
  | .external _ => rfl
  | .loaded library => Library.leaves_copy library

theorem useLeaves_copy
    : ∀ uses : List (String × Use), useLeaves (copyUses W uses) = (useLeaves uses).map W.leaf
  | [] => rfl
  | (_, use) :: uses => by
      have first := Use.leaves_copy use
      have rest := useLeaves_copy uses
      simp only [copyUses, useLeaves, first, rest, List.map_append]

end

/-- A document is copied leaf by leaf. -/
theorem Document.leaves_copy (d : Document) : (d.copy W).leaves = d.leaves.map W.leaf := by
  have outer : (d.copy W).outerLeaves = d.outerLeaves.map (W d.library).leaf := by
    simp only [outerLeaves, copy, Properties.leaves_copy, Resources.leaves_copy, List.map_append,
      List.map_cons]
    rfl
  rw [leaves, outer, leaves, List.map_append, List.map_map]
  simp only [copy, Library.leaves_copy, List.map_map]
  rfl

-----------------------------------------------------------------------------------------
-- Look-up in copies
-----------------------------------------------------------------------------------------

namespace Library

variable {w}

/-- Namespaces lead from a copy to the copies of what they lead to. -/
theorem namespace?_copy (l : Library) (name : String)
    : (l.copy W).namespace? name = (l.namespace? name).map (copy W) := by
  simp only [namespace?, copy_eq, copyOwn, copyUses_eq, Keyed.get?_mapValues]
  cases Keyed.get? l.uses name with
  | none => rfl
  | some use => cases use <;> rfl

/-- Chains of namespaces do so as well. -/
theorem descend?_copy (path : List String) (l : Library)
    : (l.copy W).descend? path = (l.descend? path).map (copy W) := by
  induction path generalizing l with
  | nil => rfl
  | cons name path ih =>
      rw [descend?, descend?, namespace?_copy]
      cases l.namespace? name with
      | none => rfl
      | some used => exact ih used

/-- A name denotes the copy of the declaration that it denotes in the original. -/
theorem getAnnotationType?_copy (l : Library) (name : String)
    : (l.copy fun _ => w).getAnnotationType? name
      = (l.getAnnotationType? name).map (AnnotationType.copy w) := by
  simp only [getAnnotationType?, qualified?, descend?_copy]
  cases l.descend? (TypeName.parts name).dropLast with
  | none => rfl
  | some found =>
      simp only [Option.map_some, Option.bind_eq_bind, Option.bind_some, copy_eq, copyOwn,
        Keyed.get?_mapValues]

end Library

end Raml
