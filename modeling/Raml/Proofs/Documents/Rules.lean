import Raml.Proofs.Documents.Leaves
import Raml.Proofs.Outcomes
import Raml.Proofs.Tables

/-! Rules for documents: what is demanded of all leaves, beyond what makes them sound.

Rules differ from phase to phase. Which demands are met follows part by part, since the leaves of a
document are those of its parts.
-/

namespace Raml

/-- Kinds that are not built in are called as the types that they come from. -/
theorem Kind.eq_of_ofName_eq_custom {name other : String} (h : Kind.ofName name = .custom other)
    : other = name := by
  unfold ofName at h
  split at h
  all_goals cases h
  rfl

/-- The kinds of types are told apart by their names. -/
theorem Kind.ofName_name_ofName (name : String) : ofName (ofName name).name = ofName name := by
  cases found : Kind.ofName name with
  | custom other =>
      cases eq_of_ofName_eq_custom found
      exact found
  | _ => rfl

/-- What is demanded of examples and of annotations. -/
structure Rules where
  /-- What the value of an example is, given the kind of its type, whether a file is its origin, and
  whether it has been read. -/
  ofExample : Kind → Option Value → Bool → Bool → Prop
  ofApplied : String → Annotation → Prop

namespace Rules

/-- Rules demand nothing of leaves of other kinds. -/
@[simp] def OfLeaf (R : Rules) : Leaf → Prop
  | .exampleValue kind value included loaded => R.ofExample kind value included loaded
  | .applied key a => R.ofApplied key a
  | .typeName _ _ _ _ | .property _ _ | .annotationType _ | .enumValue _ | .fragment _ | .keys _
  | .statuses _ => True

/-- All of the leaves are sound and as the rules demand. -/
def All (R : Rules) (leaves : List Leaf) : Prop := ∀ leaf ∈ leaves, leaf.Sound ∧ R.OfLeaf leaf

variable {R : Rules} {leaves : List Leaf}

/-- Rules demand more than soundness. -/
theorem All.sound (h : R.All leaves) : ∀ leaf ∈ leaves, leaf.Sound := fun leaf member =>
  (h leaf member).1

@[simp] theorem all_nil : R.All [] := nofun

@[simp] theorem all_append {a b : List Leaf} : R.All (a ++ b) ↔ R.All a ∧ R.All b :=
  List.forall_mem_append

theorem all_cons {leaf : Leaf}
    : R.All (leaf :: leaves) ↔ (leaf.Sound ∧ R.OfLeaf leaf) ∧ R.All leaves :=
  List.forall_mem_cons

-----------------------------------------------------------------------------------------
-- Leaves of one kind
-----------------------------------------------------------------------------------------

/-- No rule says anything of the names of types. -/
@[simp] theorem all_typeName {name baseName : String} {isArray : Bool} {kind : Kind}
    : R.All (.typeName name baseName isArray kind :: leaves)
      ↔ (TypeName.splitArray name = (baseName, isArray) ∧ Kind.ofName kind.name = kind
          ∧ (TypeName.isInline name = true → kind = .ofName baseName))
        ∧ R.All leaves := by
  simp [all_cons]

@[simp] theorem all_property {key name : String}
    : R.All (.property key name :: leaves) ↔ name = key ∧ R.All leaves := by
  simp [all_cons]

@[simp] theorem all_exampleValue {kind : Kind} {value : Option Value} {included loaded : Bool}
    : R.All (.exampleValue kind value included loaded :: leaves)
      ↔ ((∀ v ∈ value, v.Regular) ∧ R.ofExample kind value included loaded) ∧ R.All leaves := by
  simp [all_cons]

@[simp] theorem all_annotationType {name : String}
    : R.All (.annotationType name :: leaves) ↔ R.All leaves := by
  simp [all_cons]

@[simp] theorem all_fragment {f : Option Fragment}
    : R.All (.fragment f :: leaves) ↔ (Leaf.fragment f).Sound ∧ R.All leaves := by
  simp [all_cons]

@[simp] theorem all_keys {keys : List String}
    : R.All (.keys keys :: leaves) ↔ keys.Nodup ∧ R.All leaves := by
  simp [all_cons]

@[simp] theorem all_statuses {statuses : List UInt16}
    : R.All (.statuses statuses :: leaves) ↔ statuses.Nodup ∧ R.All leaves := by
  simp [all_cons]

@[simp] theorem all_enumValues {vs : List Value}
    : R.All (vs.map .enumValue) ↔ ∀ v ∈ vs, v.Regular := by
  simp [All]

theorem all_flatMap {α : Type} {items : List α} {f : α → List Leaf}
    : R.All (items.flatMap f) ↔ ∀ a ∈ items, R.All (f a) := by
  simp only [All, List.mem_flatMap]
  exact ⟨fun h a member leaf inside => h leaf ⟨a, member, inside⟩,
    fun h leaf ⟨a, member, inside⟩ => h a member leaf inside⟩

/-- A table has no key twice, and its entries are as demanded. -/
theorem all_table {α : Type} {entries : Keyed α} {f : α → List Leaf}
    : R.All (.keys (Keyed.keys entries) :: entries.flatMap fun (_, a) => f a)
      ↔ (Keyed.keys entries).Nodup ∧ ∀ entry ∈ entries, R.All (f entry.2) := by
  rw [all_keys, all_flatMap]

-----------------------------------------------------------------------------------------
-- Types
-----------------------------------------------------------------------------------------

/-- The annotation is sound and as the rules demand. -/
def OfApplied (R : Rules) (key : String) (a : Annotation) : Prop :=
  (∀ v ∈ a.value, v.Regular) ∧ R.ofApplied key a

/-- Annotations are demanded to stand under the right keys. -/
theorem all_annotations {annotations : Annotations}
    : R.All (Annotations.leaves annotations)
      ↔ (Keyed.keys annotations).Nodup
        ∧ ∀ entry ∈ annotations, R.OfApplied entry.1 entry.2 := by
  rw [Annotations.leaves, all_keys]
  simp only [All, List.forall_mem_map]
  rfl

/-- An example is the first leaf of its own, and those of its annotations follow. -/
theorem all_example {kind : Kind} {e : Example}
    : R.All (e.leaves kind)
      ↔ ((∀ v ∈ e.value, v.Regular) ∧ R.ofExample kind e.value e.included e.loaded)
        ∧ R.All (Annotations.leaves e.annotations) :=
  all_exampleValue

theorem all_examples {kind : Kind} {examples : Examples}
    : R.All (Examples.leaves kind examples)
      ↔ (Keyed.keys examples).Nodup ∧ ∀ entry ∈ examples, R.All (entry.2.leaves kind) :=
  all_table

/-- What is demanded of a declaration, part by part. -/
@[mk_iff]
structure OfDeclaration (R : Rules) (kind : Kind) (d : Declaration) : Prop where
  default? : (Leaf.fragment d.default?).Sound
  schema : (Leaf.fragment d.schema).Sound
  single : ∀ e ∈ d.example?, R.All (e.leaves kind)
  named : R.All (Examples.leaves kind d.examples)
  annotations : R.All (Annotations.leaves d.annotations)
  facets : (Leaf.fragment d.facets).Sound
  xml : (Leaf.fragment d.xml).Sound

/-- The parts of a declaration are those of its description. -/
theorem all_declaration {kind : Kind} {d : Declaration}
    : R.All (d.leaves kind) ↔ R.OfDeclaration kind d := by
  simp only [Declaration.leaves, all_append, all_fragment, all_nil, and_true, all_flatMap,
    Option.mem_toList, Option.mem_def, ofDeclaration_iff, and_assoc]

/-- What is demanded of a type but for its properties, part by part. -/
@[mk_iff]
structure OfType (R : Rules) (t : TypeNode) : Prop where
  name : TypeName.splitArray t.typeName = (t.baseName, t.isArray)
  kind : Kind.ofName t.kind.name = t.kind
  inPlace : t.isInline = true → t.kind = .ofName t.baseName
  declaration : R.OfDeclaration t.kind t.declaration
  values : ∀ v ∈ t.scalar.enumeration, v.Regular
  discriminatorValue : (Leaf.fragment t.object.discriminatorValue).Sound
  items : (Leaf.fragment t.array.items).Sound

/-- The parts of a type are those of its description. -/
theorem all_ownLeaves {t : TypeNode} : R.All t.ownLeaves ↔ R.OfType t := by
  simp only [TypeNode.ownLeaves, List.cons_append, all_typeName, all_append, all_declaration,
    all_enumValues, all_fragment, all_nil, and_true, ofType_iff, and_assoc, TypeNode.isInline]

/-- What is demanded of properties. -/
def OfProperties (R : Rules) (properties : Properties) : Prop :=
  (Keyed.keys properties).Nodup
    ∧ ∀ entry ∈ properties, entry.2.name = entry.1 ∧ R.All entry.2.type.leaves

/-- Properties are named by their keys. -/
theorem all_properties {properties : Properties}
    : R.All (Properties.leaves properties) ↔ R.OfProperties properties := by
  rw [Properties.leaves, all_keys, propertyLeaves_eq, all_flatMap]
  simp only [OfProperties, all_property]

/-- What a type by itself is like does not depend on its properties. -/
theorem OfType.withProperties {t : TypeNode} (h : R.OfType t) (properties : Properties)
    : R.OfType (t.withProperties properties) :=
  ⟨h.name, h.kind, h.inPlace, h.declaration, h.values, h.discriminatorValue, h.items⟩

/-- A type obeys the rules if it does by itself and its properties do. -/
theorem all_type {t : TypeNode} : R.All t.leaves ↔ R.OfType t ∧ R.OfProperties t.properties := by
  rw [TypeNode.leaves_eq, all_append, all_ownLeaves, all_properties]

-----------------------------------------------------------------------------------------
-- Methods and resources
-----------------------------------------------------------------------------------------

theorem all_bodies {bodies : Bodies}
    : R.All (Bodies.leaves bodies)
      ↔ (Keyed.keys bodies).Nodup ∧ ∀ entry ∈ bodies, R.All entry.2.leaves :=
  all_table

/-- What is demanded of a response, part by part. -/
@[mk_iff]
structure OfResponse (R : Rules) (r : Response) : Prop where
  annotations : R.All (Annotations.leaves r.annotations)
  headers : R.OfProperties r.headers
  bodies : R.All (Bodies.leaves r.bodies)

/-- The parts of a response are those of its description. -/
theorem all_response {r : Response} : R.All r.leaves ↔ R.OfResponse r := by
  simp only [Response.leaves, all_append, all_properties, ofResponse_iff, and_assoc]

theorem all_responses {responses : Responses}
    : R.All (Responses.leaves responses)
      ↔ (responses.map (·.1)).Nodup ∧ ∀ entry ∈ responses, R.All entry.2.leaves := by
  rw [Responses.leaves, all_statuses, all_flatMap]

theorem all_traits {traits : List Trait}
    : R.All (traitLeaves traits) ↔ ∀ t ∈ traits, R.All t.leaves := by
  rw [traitLeaves_eq, all_flatMap]

/-- What is demanded of a method, part by part. -/
@[mk_iff]
structure OfMethod (R : Rules) (m : Method) : Prop where
  annotations : R.All (Annotations.leaves m.annotations)
  queryParameters : R.OfProperties m.queryParameters
  headers : R.OfProperties m.headers
  queryString : (Leaf.fragment m.queryString).Sound
  responses : R.All (Responses.leaves m.responses)
  bodies : R.All (Bodies.leaves m.bodies)
  is : R.All (traitLeaves m.is)
  securedBy : (Leaf.fragment m.securedBy).Sound

/-- The parts of a method are those of its description. -/
theorem all_method {m : Method} : R.All m.leaves ↔ R.OfMethod m := by
  simp only [Method.leaves_eq, all_append, all_fragment, all_properties, all_nil, and_true,
    ofMethod_iff, and_assoc]

/-- All that is demanded of a trait is demanded of what it has in common with methods. -/
theorem all_trait {t : Trait} : R.All t.leaves ↔ R.OfMethod t.method := by
  rw [Trait.leaves_eq, all_method]

theorem all_methods {methods : List (String × Method)}
    : R.All (methodLeaves methods)
      ↔ (Keyed.keys methods).Nodup ∧ ∀ entry ∈ methods, R.All entry.2.leaves :=
  all_table

theorem all_resources {resources : Resources}
    : R.All (Resources.leaves resources)
      ↔ (Keyed.keys resources).Nodup ∧ ∀ entry ∈ resources, R.All entry.2.leaves := by
  rw [Resources.leaves, resourceLeaves_eq, all_table]

/-- What is demanded of a resource, part by part. -/
@[mk_iff]
structure OfResource (R : Rules) (r : Resource) : Prop where
  annotations : R.All (Annotations.leaves r.annotations)
  methods : R.All (methodLeaves r.methods)
  is : R.All (traitLeaves r.is)
  type : (Leaf.fragment r.type).Sound
  securedBy : (Leaf.fragment r.securedBy).Sound
  uriParameters : R.OfProperties r.uriParameters
  resources : R.All (Resources.leaves r.resources)

/-- The parts of a resource are those of its description. -/
theorem all_resource {r : Resource} : R.All r.leaves ↔ R.OfResource r := by
  simp only [Resource.leaves_eq, all_append, all_fragment, all_properties, all_nil, and_true,
    ofResource_iff, and_assoc]

-----------------------------------------------------------------------------------------
-- Libraries and documents
-----------------------------------------------------------------------------------------

/-- What is demanded of a library by itself, part by part. -/
@[mk_iff]
structure OfLibrary (R : Rules) (l : Library) : Prop where
  schemas : (Leaf.fragment l.schemas).Sound
  types : R.All (Types.leaves l.types)
  traits : R.All (Traits.leaves l.traits)
  resourceTypes : (Leaf.fragment l.resourceTypes).Sound
  annotationTypes : R.All (AnnotationTypes.leaves l.annotationTypes)
  annotations : R.All (Annotations.leaves l.annotations)
  securitySchemes : (Leaf.fragment l.securitySchemes).Sound
  uses : (Keyed.keys l.uses).Nodup

/-- The parts of a library by itself are those of its description. -/
theorem all_libraryLeaves {l : Library} : R.All l.ownLeaves ↔ R.OfLibrary l := by
  simp only [Library.ownLeaves, List.cons_append, all_append, all_fragment, all_keys, all_nil,
    and_true, ofLibrary_iff, and_assoc]

/-- Libraries in use are demanded to be as the rules say throughout. Paths are not. -/
theorem all_uses {uses : Uses}
    : R.All ((useLeaves uses).map (·.2))
      ↔ ∀ name used, (name, Use.loaded used) ∈ uses → R.All used.allLeaves := by
  rw [useLeaves_eq, List.map_flatMap, all_flatMap]
  constructor
  · exact fun h name used member => h _ member
  · rintro h ⟨name, use⟩ member
    cases use with
    | external path => exact all_nil
    | loaded used => exact h name used member

/-- A library obeys the rules if it does by itself and those that it uses do. -/
theorem all_library {l : Library}
    : R.All l.allLeaves
      ↔ R.OfLibrary l ∧ ∀ name used, (name, Use.loaded used) ∈ l.uses → R.All used.allLeaves := by
  rw [Library.allLeaves, Library.leaves_eq, List.map_append, List.map_map, all_append, all_uses,
    ← all_libraryLeaves]
  simp [Function.comp_def]

/-- What is demanded of a document, part by part. -/
@[mk_iff]
structure OfDocument (R : Rules) (d : Document) : Prop where
  library : R.All d.library.allLeaves
  baseUriParameters : R.OfProperties d.baseUriParameters
  securedBy : (Leaf.fragment d.securedBy).Sound
  resources : R.All (Resources.leaves d.resources)

/-- The parts of a document are those of its description. -/
theorem all_document {d : Document} : R.All d.allLeaves ↔ R.OfDocument d := by
  have outer : (d.outerLeaves.map (d.library, ·)).map (·.2) = d.outerLeaves := by
    simp [Function.comp_def]
  rw [Document.allLeaves, Document.leaves, List.map_append, outer]
  simp only [Document.outerLeaves, all_append, all_fragment, all_properties, ofDocument_iff,
    Library.allLeaves]

-----------------------------------------------------------------------------------------
-- The names of types
-----------------------------------------------------------------------------------------

/-- It does not matter of which kind the type of an example is. -/
def KindFree (R : Rules) : Prop :=
  ∀ {kind kind' value included loaded},
    R.ofExample kind value included loaded → R.ofExample kind' value included loaded

/-- An example may be that of a type of another kind. -/
theorem All.withKind (free : R.KindFree) {kind kind' : Kind} {e : Example}
    (h : R.All (e.leaves kind))
    : R.All (e.leaves kind') := by
  obtain ⟨⟨regular, allowed⟩, annotations⟩ := all_example.mp h
  exact all_example.mpr ⟨⟨regular, free allowed⟩, annotations⟩

/-- A declaration may be that of a type of another kind. -/
theorem OfDeclaration.withKind (free : R.KindFree) {kind kind' : Kind} {d : Declaration}
    (h : R.OfDeclaration kind d)
    : R.OfDeclaration kind' d := by
  obtain ⟨unique, each⟩ := all_examples.mp h.named
  exact { h with
    single := fun e member => (h.single e member).withKind free
    named := all_examples.mpr ⟨unique, fun entry member => (each entry member).withKind free⟩ }

/-- What a declaration calls its type is no leaf of its own. -/
theorem OfDeclaration.withTypeName {kind : Kind} {d : Declaration} (h : R.OfDeclaration kind d)
    (typeName : String)
    : R.OfDeclaration kind { d with typeName } :=
  ⟨h.default?, h.schema, h.single, h.named, h.annotations, h.facets, h.xml⟩

/-- Whatever a type is called, what follows from its name follows. -/
theorem OfType.setName (free : R.KindFree) {t : TypeNode} (h : R.OfType t) (name : String)
    : R.OfType (t.setName name) where
  name := rfl
  kind := Kind.ofName_name_ofName _
  inPlace _ := rfl
  declaration := (h.declaration.withTypeName name).withKind free
  values := h.values
  discriminatorValue := h.discriminatorValue
  items := h.items

/-- A type that is called something else is as sound, if kinds do not matter. -/
theorem All.setName (free : R.KindFree) {t : TypeNode} (h : R.All t.leaves) (name : String)
    : R.All (t.setName name).leaves :=
  have ⟨own, properties⟩ := all_type.mp h
  all_type.mpr ⟨own.setName free name, properties⟩

-----------------------------------------------------------------------------------------
-- What sets nothing
-----------------------------------------------------------------------------------------

theorem all_noAnnotations : R.All (Annotations.leaves []) := all_annotations.mpr ⟨List.nodup_nil, nofun⟩

theorem all_noExamples {kind : Kind} : R.All (Examples.leaves kind []) :=
  all_examples.mpr ⟨List.nodup_nil, nofun⟩

theorem ofProperties_nil : R.OfProperties [] := ⟨List.nodup_nil, nofun⟩

/-- The empty type obeys all rules. -/
theorem ofType_empty : R.OfType .empty where
  name := by decide
  kind := rfl
  inPlace _ := by decide
  declaration := ⟨nofun, nofun, nofun, all_noExamples, all_noAnnotations, nofun, nofun⟩
  values := nofun
  discriminatorValue := nofun
  items := nofun

/-- A type that is a name alone obeys all rules that are not about kinds. -/
theorem all_ofName (free : R.KindFree) (name : String) : R.All (TypeNode.ofName name).leaves :=
  all_type.mpr ⟨ofType_empty.setName free name, ofProperties_nil⟩

theorem all_noBodies : R.All (Bodies.leaves []) := all_bodies.mpr ⟨List.nodup_nil, nofun⟩

theorem all_noResponses : R.All (Responses.leaves []) := all_responses.mpr ⟨List.nodup_nil, nofun⟩

/-- The empty method obeys all rules. -/
theorem ofMethod_empty : R.OfMethod .empty :=
  ⟨all_noAnnotations, ofProperties_nil, ofProperties_nil, nofun, all_noResponses, all_noBodies,
    all_nil, nofun⟩

-----------------------------------------------------------------------------------------
-- Tables
-----------------------------------------------------------------------------------------

/-- A table keeps its keys when its values are changed one by one. -/
theorem mapM_keyed {ε κ α β : Type} {Q : κ → β → Prop} {f : κ × α → Except ε (κ × β)}
    {entries : List (κ × α)}
    (each : ∀ entry ∈ entries, Yields (f entry) fun e => e.1 = entry.1 ∧ Q e.1 e.2)
    : Yields (entries.mapM f) fun results =>
        results.map (·.1) = entries.map (·.1) ∧ ∀ entry ∈ results, Q entry.1 entry.2 := by
  induction entries with
  | nil => exact Yields.ok ⟨rfl, nofun⟩
  | cons entry entries ih =>
      obtain ⟨first, rest⟩ := List.forall_mem_cons.mp each
      rw [List.mapM_cons]
      refine Yields.bind first fun pair ⟨same, holds⟩ => ?_
      refine Yields.bind (ih rest) fun results ⟨keys, all⟩ => Yields.ok ⟨?_, ?_⟩
      · exact congr (congrArg List.cons same) keys
      · exact List.forall_mem_cons.mpr ⟨holds, all⟩

variable {R' : Rules}

/-- A table whose entries are turned keeps its keys. -/
theorem all_mapM {ε α : Type} {leaves : α → List Leaf} {f : α → Except ε α} {entries : Keyed α}
    (h : R.All (.keys (Keyed.keys entries) :: entries.flatMap fun (_, a) => leaves a))
    (each : ∀ entry ∈ entries, R.All (leaves entry.2)
      → Yields (f entry.2) fun a => R'.All (leaves a))
    : Yields (entries.mapM fun (key, a) => do return (key, ← f a)) fun results =>
        R'.All (.keys (Keyed.keys results) :: results.flatMap fun (_, a) => leaves a) := by
  obtain ⟨unique, all⟩ := all_table.mp h
  intro results mapped
  obtain ⟨keys, holds⟩ := mapM_keyed (Q := fun _ a => R'.All (leaves a))
    (fun entry member => (each entry member (all entry member)).keyed entry.1) results mapped
  have same : Keyed.keys results = Keyed.keys entries := keys
  exact all_table.mpr ⟨same ▸ unique, holds⟩

/-- Libraries in use are changed one by one under their namespaces. -/
theorem all_mapUses {ε : Type} {f : String → Use → Except ε Use} {uses : Uses}
    (each : ∀ name use, (name, use) ∈ uses → Yields (f name use) fun use =>
      ∀ used, use = .loaded used → R'.All used.allLeaves)
    : Yields (uses.mapM fun (name, use) => do return (name, ← f name use)) fun uses' =>
        Keyed.keys uses' = Keyed.keys uses
          ∧ ∀ name used, (name, Use.loaded used) ∈ uses' → R'.All used.allLeaves := by
  intro uses' mapped
  obtain ⟨keys, all⟩ := mapM_keyed
    (Q := fun _ use => ∀ used, use = Use.loaded used → R'.All used.allLeaves)
    (fun entry member => (each entry.1 entry.2 member).keyed entry.1) uses' mapped
  exact ⟨keys, fun name used member => all _ member used rfl⟩

/-- Libraries in use that are turned keep their namespaces. -/
theorem all_changeUses {ε : Type} {change : String → Library → Except ε Library} {uses : Uses}
    (each : ∀ name used, (name, Use.loaded used) ∈ uses →
      Yields (change name used) fun l => R'.All l.allLeaves)
    : Yields (Library.changeUses change uses) fun uses' => Keyed.keys uses' = Keyed.keys uses
        ∧ ∀ name used, (name, Use.loaded used) ∈ uses' → R'.All used.allLeaves := by
  refine all_mapUses (f := fun name => Library.changeUse (change name)) fun name use member => ?_
  cases use with
  | external path => exact Yields.ok nofun
  | loaded used =>
      refine Yields.bind (each name used member) fun l obeys => Yields.ok ?_
      rintro _ ⟨⟩
      exact obeys

-----------------------------------------------------------------------------------------
-- The phases
-----------------------------------------------------------------------------------------

/-- Of a document before its files are read: the value of an example from a file is the path of that
file. -/
def pending (ofApplied : String → Annotation → Prop) : Rules where
  ofExample _ value included loaded :=
    included = true → loaded = false ∧ ∃ path, value = some (.string path)
  ofApplied

/-- Of a document as it is written: annotations stand under keys of their own kind. -/
def written : Rules := pending fun key _ => Annotation.isKey key = true

/-- Before files are read the kind of a type says nothing of its examples. -/
theorem kindFree_pending (ofApplied : String → Annotation → Prop)
    : (pending ofApplied).KindFree := id

end Rules

end Raml
