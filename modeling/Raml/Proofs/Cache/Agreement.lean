import Raml.Form.Write
import Raml.Proofs.Cache.Copies
import Raml.Proofs.Json.Omission

/-! What is written of a copy: the same as of the original, but for members that are null.

A copy has nothing in the place of a fragment or of the value of an example where null was written.
What else a faithful copy changes is not written at all.
-/

namespace Raml

open Form Json

-----------------------------------------------------------------------------------------
-- Leaves that are null
-----------------------------------------------------------------------------------------

def Json.isNull : Json → Bool
  | .null => true
  | _ => false

/-- Null is written for what stands there. -/
@[simp] def Leaf.holdsNull : Leaf → Bool
  | .fragment f => f.any Json.isNull
  | .exampleValue _ value _ _ => (value.map Value.toJson).any Json.isNull
  | .typeName _ _ _ _ | .property _ _ | .applied _ _ | .annotationType _ | .enumValue _ | .keys _
  | .statuses _ => false

/-- How many leaves are null. -/
def Leaf.nulls (leaves : List Leaf) : Nat := leaves.countP holdsNull

namespace Leaf

@[simp] theorem nulls_nil : nulls [] = 0 := rfl

@[simp] theorem nulls_append (a b : List Leaf) : nulls (a ++ b) = nulls a + nulls b :=
  List.countP_append

@[simp] theorem nulls_cons (leaf : Leaf) (leaves : List Leaf)
    : nulls (leaf :: leaves) = leaf.holdsNull.toNat + nulls leaves := by
  rw [nulls, List.countP_cons, Nat.add_comm]
  cases leaf.holdsNull <;> rfl

@[simp] theorem nulls_enumValues (vs : List Value) : nulls (vs.map .enumValue) = 0 := by
  simp [nulls]

@[simp] theorem nulls_annotations (annotations : Annotations)
    : nulls (Annotations.leaves annotations) = 0 := by
  simp [Annotations.leaves, nulls]

end Leaf

open Leaf (nulls)

-----------------------------------------------------------------------------------------
-- Members
-----------------------------------------------------------------------------------------

namespace Json.MembersOmit

/-- A fragment that is null is written by the original alone, and makes a difference of one member.
-/
theorem fragment (key : String) (f : Option Fragment)
    : MembersOmit (f.any Json.isNull).toNat (Form.optional key (Fragment.kept f))
        (Form.optional key f) := by
  cases f with
  | none => exact .nil
  | some j =>
      cases j with
      | null => exact .null key .nil
      | _ => exact .same _

/-- Lists are written alike as far as their items are. -/
theorem list {n : Nat} {js js' : List Json} (key : String) (items : ItemsOmit n js js')
    : MembersOmit n (Form.list key js) (Form.list key js') := by
  have whole : MembersOmit n [(key, .arr js)] [(key, .arr js')] := .cons key (.arr items) .nil
  cases items with
  | nil => exact .nil
  | cons first rest => exact whole

/-- A table whose values are copied and written one by one. -/
theorem table {α : Type} {copy : α → α} {write : α → Json} {leaves : α → List Leaf}
    {entries : List (String × α)}
    (each : ∀ entry ∈ entries, Omits (nulls (leaves entry.2)) (write (copy entry.2)) (write entry.2))
    : MembersOmit (nulls (entries.flatMap fun (_, a) => leaves a))
        ((Keyed.mapValues copy entries).map fun (key, a) => (key, write a))
        (entries.map fun (key, a) => (key, write a)) := by
  induction entries with
  | nil => exact .nil
  | cons entry entries ih =>
      obtain ⟨first, rest⟩ := List.forall_mem_cons.mp each
      simp only [List.flatMap_cons, Leaf.nulls_append, Keyed.mapValues, List.map_cons]
      exact .cons entry.1 first (ih rest)

/-- An object is written if it is not empty. -/
theorem map {n : Nat} {ms ms' : Members} (key : String) (empty : ms.isEmpty = ms'.isEmpty)
    (members : MembersOmit n ms ms')
    : MembersOmit n (Form.map key ms) (Form.map key ms') := by
  unfold Form.map
  cases h : ms'.isEmpty with
  | true =>
      obtain rfl := List.isEmpty_iff.mp h
      cases members with
      | nil => exact .nil
  | false =>
      simp only [empty, h, Bool.false_eq_true, if_false]
      exact .cons key (.obj members) .nil

end Json.MembersOmit

-----------------------------------------------------------------------------------------
-- Faithful copies
-----------------------------------------------------------------------------------------

/-- What a copy changes is not written, but for members that are null. -/
structure Copying.Faithful (w : Copying) : Prop where
  pattern (kind : Kind) (s : StringFacets) (f : FileFacets)
    : (w.lengths kind s f).1.pattern = s.pattern
  fileTypes (kind : Kind) (s : StringFacets) (f : FileFacets)
    : (w.lengths kind s f).2.fileTypes = f.fileTypes
  bounds (t : TypeNode) : (t.copyOwn w).lengthBounds = t.lengthBounds
  applied (key : String) (a : Annotation) : (w.applied key a).toJson = a.toJson
  value (kind : Kind) (included : Bool) (v : Value)
    : (w.value kind included v).map Value.toJson = Fragment.kept (some v.toJson)

variable {w : Copying}

/-- Faithful copies of annotations are written as the originals are. -/
theorem Annotations.members_copy (faithful : w.Faithful) (annotations : Annotations)
    : Annotations.members (Annotations.copy w annotations) = Annotations.members annotations := by
  simp [members, copy, faithful.applied, Function.comp_def]

/-- Of the members of an example only its value can be left out, where that is null. -/
theorem Example.omits_copy (faithful : w.Faithful) (kind : Kind) (e : Example)
    : Omits (nulls (e.leaves kind)) (e.copy w kind).toJson e.toJson := by
  have value : MembersOmit (nulls (e.leaves kind))
      (optional "value" ((e.value.bind (w.value kind e.included)).map Value.toJson))
      (optional "value" (e.value.map Value.toJson)) := by
    have count : nulls (e.leaves kind) = ((e.value.map Value.toJson).any Json.isNull).toNat := by
      simp [leaves]
    have same : (e.value.bind (w.value kind e.included)).map Value.toJson
        = Fragment.kept (e.value.map Value.toJson) := by
      cases e.value with
      | none => rfl
      | some v => simp [faithful.value]
    rw [count, same]
    exact .fragment _ _
  have front := MembersOmit.same (text "displayName" e.displayName
    ++ text "description" e.description ++ Annotations.members e.annotations)
  have back := MembersOmit.same (flag "strict" true e.strict ++ flag "includeTag" false e.included)
  have members := (front.append value).append back
  simp only [Nat.zero_add, Nat.add_zero] at members
  unfold toJson
  rw [copy, Annotations.members_copy faithful]
  simpa only [List.append_assoc] using Omits.obj members

/-- What a declaration leaves out are its own fragments, and what its examples leave out. -/
theorem Declaration.omits_copy (faithful : w.Faithful) (kind : Kind) (d : Declaration)
    : MembersOmit (nulls (d.leaves kind)) (d.copy w kind).members d.members := by
  have single : MembersOmit (nulls (d.example?.toList.flatMap (Example.leaves kind)))
      (optional "example" ((d.example?.map (Example.copy w kind)).map Example.toJson))
      (optional "example" (d.example?.map Example.toJson)) := by
    cases d.example? with
    | none => exact .nil
    | some e =>
        simpa [Form.optional] using MembersOmit.cons "example" (e.omits_copy faithful kind) .nil
  have named : MembersOmit (nulls (Examples.leaves kind d.examples))
      (map "examples" ((Keyed.mapValues (Example.copy w kind) d.examples).map
        fun entry => (entry.1, entry.2.toJson)))
      (map "examples" (d.examples.map fun entry => (entry.1, entry.2.toJson))) := by
    simp only [Examples.leaves, Leaf.nulls_cons, Leaf.holdsNull, Bool.toNat_false, Nat.zero_add]
    exact .map _ (by simp [Keyed.mapValues]) (.table fun entry _ => entry.2.omits_copy faithful kind)
  have front := ((MembersOmit.fragment "default" d.default?).append
    (.fragment "schema" d.schema)).append (.same (text "type" d.typeName))
  have back := (MembersOmit.same (text "displayName" d.displayName
    ++ text "description" d.description ++ Annotations.members d.annotations)).append
    ((MembersOmit.fragment "facets" d.facets).append (.fragment "xml" d.xml))
  have members := ((front.append single).append named).append back
  unfold Declaration.members
  rw [copy, Annotations.members_copy faithful]
  simp only [leaves, Leaf.nulls_append, Leaf.nulls_cons, Leaf.holdsNull, Leaf.nulls_annotations,
    Leaf.nulls_nil, Nat.add_zero, Nat.zero_add] at members ⊢
  simpa only [List.append_assoc, Nat.add_assoc] using members

-----------------------------------------------------------------------------------------
-- Types
-----------------------------------------------------------------------------------------

/-- A type is written as its declaration, its properties and its facets, in this order. -/
theorem TypeNode.members_eq (t : TypeNode)
    : t.members = t.declaration.members ++ map "properties" (propertyMembers t.properties)
        ++ t.object.boundMembers ++ t.facetMembers := by
  obtain ⟨_, ⟨_, _, _, _, _, _⟩, _, _, _, _, _, _, _, _⟩ := t
  rfl

/-- The value of the discriminator is the only facet of objects that can be null. -/
theorem ObjectFacets.omits_kept (f : ObjectFacets)
    : MembersOmit (f.discriminatorValue.any Json.isNull).toNat
        { f with discriminatorValue := Fragment.kept f.discriminatorValue }.boundMembers
        f.boundMembers := by
  have front := MembersOmit.same
    (Form.optional "minProperties" (f.minProperties.map fun n => .int n.toNat)
      ++ Form.optional "maxProperties" (f.maxProperties.map fun n => .int n.toNat)
      ++ flag "additionalProperties" true f.additionalProperties
      ++ Form.optional "discriminator" (f.discriminator.map .str))
  have members := front.append (.fragment "discriminatorValue" f.discriminatorValue)
  simp only [Nat.zero_add] at members
  exact members

/-- Items are the only facet of arrays that can be null. -/
theorem ArrayFacets.omits_kept (f : ArrayFacets)
    : MembersOmit (f.items.any Json.isNull).toNat
        { f with items := Fragment.kept f.items }.members f.members := by
  have members := ((MembersOmit.same (flag "uniqueItems" false f.uniqueItems)).append
    (.fragment "items" f.items)).append (.same (number "minItems" 0 f.minItems
      ++ number "maxItems" unbounded f.maxItems))
  simp only [Nat.zero_add, Nat.add_zero] at members
  unfold ArrayFacets.members
  simpa only [List.append_assoc] using members

/-- Among the facets of all other kinds only items can be null. -/
theorem TypeNode.omits_facetMembers (faithful : w.Faithful) (t : TypeNode)
    : MembersOmit (t.array.items.any Json.isNull).toNat (t.copyOwn w).facetMembers
        t.facetMembers := by
  have values : (t.copyOwn w).scalar.enumeration.map Value.toJson
      = t.scalar.enumeration.map Value.toJson := by
    simp [copyOwn, Value.toJson_reread]
  have pattern : (t.copyOwn w).string.pattern = t.string.pattern := faithful.pattern _ _ _
  have fileTypes : (t.copyOwn w).file.fileTypes = t.file.fileTypes := faithful.fileTypes _ _ _
  have kind : (t.copyOwn w).kind = t.kind := rfl
  have array : MembersOmit (t.array.items.any Json.isNull).toNat (t.copyOwn w).array.members
      t.array.members := t.array.omits_kept
  have members := ((MembersOmit.same (list "enum" (t.scalar.enumeration.map Value.toJson)
    ++ text "pattern" t.string.pattern)).append array).append
    (.same (texts "fileTypes" t.file.fileTypes ++ number "minLength" 0 t.lengthBounds.1
      ++ number "maxLength" unbounded t.lengthBounds.2
      ++ if t.kind = .any then [] else [("nativeType", .str t.kind.name)]))
  simp only [Nat.zero_add, Nat.add_zero] at members
  unfold facetMembers
  rw [values, pattern, fileTypes, faithful.bounds, kind]
  simpa only [List.append_assoc] using members

/-- What is written of a type and of its copy, given what is of the properties. -/
theorem TypeNode.omits_copy_of (faithful : w.Faithful) (t : TypeNode)
    (inside : MembersOmit (nulls (propertyLeaves t.properties))
      (propertyMembers (copyProperties w t.properties)) (propertyMembers t.properties))
    (empty : (propertyMembers (copyProperties w t.properties)).isEmpty
      = (propertyMembers t.properties).isEmpty)
    : MembersOmit (nulls t.leaves) (t.copy w).members t.members := by
  have members := (((t.declaration.omits_copy faithful t.kind).append
    (.map "properties" empty inside)).append t.object.omits_kept).append
    (t.omits_facetMembers faithful)
  have count : nulls t.leaves = nulls (t.declaration.leaves t.kind)
      + nulls (propertyLeaves t.properties) + (t.object.discriminatorValue.any Json.isNull).toNat
      + (t.array.items.any Json.isNull).toNat := by
    simp only [leaves_eq, ownLeaves, Properties.leaves, Leaf.nulls_append, Leaf.nulls_cons,
      Leaf.holdsNull, Leaf.nulls_enumValues, Leaf.nulls_nil, Bool.toNat_false]
    omega
  rw [count, members_eq, members_eq, copy_eq]
  exact members

theorem propertyMembers_eq (properties : Properties)
    : propertyMembers properties = properties.map fun (key, p) => (key, .obj p.members) := by
  induction properties with
  | nil => rfl
  | cons entry properties ih => simp [propertyMembers, ih]

/-- Either both have properties to write, or neither has. -/
theorem isEmpty_propertyMembers_copy (properties : Properties)
    : (propertyMembers (copyProperties w properties)).isEmpty
      = (propertyMembers properties).isEmpty := by
  simp [propertyMembers_eq, copyProperties_eq]

mutual

/-- What is written of a copied type falls short of the original by as many members as it has leaves
that are null, by induction on types and their properties. -/
theorem TypeNode.omits_copy (faithful : w.Faithful)
    : ∀ t : TypeNode, MembersOmit (nulls t.leaves) (t.copy w).members t.members
  | ⟨_, ⟨properties, _, _, _, _, _⟩, _, _, _, _, _, _, _, _⟩ =>
      TypeNode.omits_copy_of faithful _ (propertyMembers_omit_copy faithful properties)
        (isEmpty_propertyMembers_copy properties)

theorem Property.omits_copy (faithful : w.Faithful) (key : String)
    : ∀ p : Property, MembersOmit (nulls (p.leaves key)) (p.copy w key).members p.members
  | ⟨type, required, name⟩ => by
      have members := (TypeNode.omits_copy faithful type).append (.same (flag "required" true required))
      simp only [Property.leaves, Leaf.nulls_cons, Leaf.holdsNull, Bool.toNat_false, Nat.zero_add]
      exact members

theorem propertyMembers_omit_copy (faithful : w.Faithful)
    : ∀ properties : List (String × Property),
      MembersOmit (nulls (propertyLeaves properties))
        (propertyMembers (copyProperties w properties)) (propertyMembers properties)
  | [] => .nil
  | (key, p) :: properties => by
      have first := Property.omits_copy faithful key p
      have rest := propertyMembers_omit_copy faithful properties
      rw [propertyLeaves, Leaf.nulls_append]
      exact .cons key (.obj first) rest

end

/-- Properties are left out only if there are none, of the copy as of the original. -/
theorem Properties.omits_copy (faithful : w.Faithful) (key : String) (properties : Properties)
    : MembersOmit (nulls (Properties.leaves properties))
        (map key (propertyMembers (copyProperties w properties)))
        (map key (propertyMembers properties)) := by
  have members := (propertyMembers_omit_copy faithful properties).map key
    (isEmpty_propertyMembers_copy properties)
  simpa only [Properties.leaves, Leaf.nulls_cons, Leaf.holdsNull, Bool.toNat_false, Nat.zero_add]
    using members

theorem TypeNode.toJson_omits_copy (faithful : w.Faithful) (t : TypeNode)
    : Omits (nulls t.leaves) (t.copy w).toJson t.toJson :=
  .obj (t.omits_copy faithful)

/-- An object that holds a table whose values are copied and written one by one. -/
theorem table_omits_copy {α : Type} {copy : α → α} {write : α → Json} {leaves : α → List Leaf}
    (key : String) (each : ∀ a, Omits (nulls (leaves a)) (write (copy a)) (write a))
    (entries : List (String × α))
    : MembersOmit (nulls (entries.flatMap fun (_, a) => leaves a))
        (map key ((Keyed.mapValues copy entries).map fun (name, a) => (name, write a)))
        (map key (entries.map fun (name, a) => (name, write a))) :=
  .map key (by simp [Keyed.mapValues]) (.table fun entry _ => each entry.2)

-----------------------------------------------------------------------------------------
-- Methods and resources
-----------------------------------------------------------------------------------------

/-- Bodies are left out only if there are none, of the copy as of the original. -/
theorem Bodies.omits_copy (faithful : w.Faithful) (bodies : Bodies)
    : MembersOmit (nulls (Bodies.leaves bodies))
        (Bodies.members (Keyed.mapValues (TypeNode.copy w) bodies)) (Bodies.members bodies) := by
  simp only [leaves, Leaf.nulls_cons, Leaf.holdsNull, Bool.toNat_false, Nat.zero_add]
  exact table_omits_copy "body" (TypeNode.toJson_omits_copy faithful) bodies

theorem Response.omits_copy (faithful : w.Faithful) (r : Response)
    : Omits (nulls r.leaves) (r.copy w).toJson r.toJson := by
  have front := MembersOmit.same (text "description" r.description
    ++ Annotations.members r.annotations)
  have members := (front.append (r.headers.omits_copy faithful "headers")).append
    (r.bodies.omits_copy faithful)
  simp only [Nat.zero_add] at members
  unfold toJson
  rw [copy, Annotations.members_copy faithful]
  simpa only [leaves, Leaf.nulls_append, Leaf.nulls_annotations, Nat.zero_add] using Omits.obj members

/-- Statuses are written as keys, and a copy keeps them. -/
theorem Responses.omits_copy (faithful : w.Faithful) (responses : Responses)
    : MembersOmit (nulls (Responses.leaves responses))
        (map "responses" (responseMembers (Responses.copy w responses)))
        (map "responses" (responseMembers responses)) := by
  have members : MembersOmit (nulls (Responses.leaves responses))
      (responseMembers (Responses.copy w responses)) (responseMembers responses) := by
    simp only [leaves, Leaf.nulls_cons, Leaf.holdsNull, Bool.toNat_false, Nat.zero_add]
    induction responses with
    | nil => exact .nil
    | cons entry responses ih =>
        obtain ⟨status, r⟩ := entry
        simp only [List.flatMap_cons, Leaf.nulls_append]
        exact .cons _ (r.omits_copy faithful) ih
  exact .map _ (by simp [responseMembers, copy]) members

mutual

/-- The same for methods and the traits that they use, by induction on both. -/
theorem Method.omits_copy (faithful : w.Faithful)
    : ∀ m : Method, MembersOmit (nulls m.leaves) (m.copy w).members m.members
  | ⟨displayName, description, annotations, queryParameters, headers, queryString, responses, bodies,
      protocols, is, securedBy, _⟩ => by
      have uses := traitItems_omit_copy faithful is
      have front := MembersOmit.same (text "displayName" displayName
        ++ text "description" description ++ Annotations.members annotations)
      have parameters := (front.append
        (Properties.omits_copy faithful "queryParameters" queryParameters)).append
        (Properties.omits_copy faithful "headers" headers)
      have results := ((parameters.append (.fragment "queryString" queryString)).append
        (Responses.omits_copy faithful responses)).append (Bodies.omits_copy faithful bodies)
      have members := ((results.append (.same (texts "protocols" protocols))).append
        (.list "is" uses)).append (.fragment "securedBy" securedBy)
      simp only [Method.copy, Method.members, Annotations.members_copy faithful]
      simp only [Method.leaves, Leaf.nulls_append, Leaf.nulls_cons, Leaf.holdsNull,
        Leaf.nulls_annotations, Leaf.nulls_nil, Nat.zero_add, Nat.add_zero] at members ⊢
      simpa only [List.append_assoc, Nat.add_assoc] using members

theorem Trait.omits_copy (faithful : w.Faithful)
    : ∀ t : Trait, MembersOmit (nulls t.leaves) (t.copy w).members t.members
  | ⟨reference, method, usage, resourcePath, resourcePathName, methodName, _⟩ => by
      have inside := Method.omits_copy faithful method
      have members := ((MembersOmit.same (text "name" reference)).append inside).append
        (.same (text "usage" usage ++ text "resourcePath" resourcePath
          ++ text "resourcePathName" resourcePathName ++ text "methodName" methodName))
      simp only [Nat.zero_add, Nat.add_zero] at members
      simp only [Trait.copy, Trait.members, Trait.leaves]
      simpa only [List.append_assoc] using members

theorem traitItems_omit_copy (faithful : w.Faithful)
    : ∀ traits : List Trait,
      ItemsOmit (nulls (traitLeaves traits)) (traitItems (copyTraits w traits)) (traitItems traits)
  | [] => .nil
  | t :: traits => by
      have first := Trait.omits_copy faithful t
      have rest := traitItems_omit_copy faithful traits
      rw [traitLeaves, Leaf.nulls_append]
      exact .cons (.obj first) rest

end

theorem Method.toJson_omits_copy (faithful : w.Faithful) (m : Method)
    : Omits (nulls m.leaves) (m.copy w).toJson m.toJson :=
  .obj (m.omits_copy faithful)

theorem Trait.toJson_omits_copy (faithful : w.Faithful) (t : Trait)
    : Omits (nulls t.leaves) (t.copy w).toJson t.toJson :=
  .obj (t.omits_copy faithful)

theorem resourceMembers_eq (resources : Resources)
    : resourceMembers resources = resources.map fun (key, r) => (key, r.toJson) := by
  induction resources with
  | nil => rfl
  | cons entry resources ih => simp [resourceMembers, ih]

/-- Either both have resources to write, or neither has. -/
theorem isEmpty_resourceMembers_copy (resources : Resources)
    : (resourceMembers (copyResources w resources)).isEmpty = (resourceMembers resources).isEmpty := by
  simp [resourceMembers_eq, copyResources_eq, Keyed.mapValues]

mutual

/-- The same for resources, at every depth. -/
theorem Resource.omits_copy (faithful : w.Faithful)
    : ∀ r : Resource, Omits (nulls r.leaves) (r.copy w).toJson r.toJson
  | ⟨displayName, description, annotations, methods, is, type, securedBy, uriParameters,
      resources⟩ => by
      have below := (resourceMembers_omit_copy faithful resources).map "resources"
        (isEmpty_resourceMembers_copy resources)
      have front := MembersOmit.same (text "displayName" displayName
        ++ text "description" description ++ Annotations.members annotations)
      have own := (front.append
        (table_omits_copy "methods" (Method.toJson_omits_copy faithful) methods)).append
        (.list "is" (traitItems_omit_copy faithful is))
      have parts := (own.append (.fragment "type" type)).append (.fragment "securedBy" securedBy)
      have members := (parts.append
        (Properties.omits_copy faithful "uriParameters" uriParameters)).append below
      simp only [Resource.copy, Resource.toJson, Annotations.members_copy faithful]
      simp only [Resource.leaves, methodLeaves, Leaf.nulls_append, Leaf.nulls_cons, Leaf.holdsNull,
        Leaf.nulls_annotations, Leaf.nulls_nil, Bool.toNat_false, Nat.zero_add, Nat.add_zero]
        at members ⊢
      simpa only [List.append_assoc, Nat.add_assoc] using Omits.obj members

theorem resourceMembers_omit_copy (faithful : w.Faithful)
    : ∀ resources : List (String × Resource),
      MembersOmit (nulls (resourceLeaves resources)) (resourceMembers (copyResources w resources))
        (resourceMembers resources)
  | [] => .nil
  | (key, r) :: resources => by
      have first := Resource.omits_copy faithful r
      have rest := resourceMembers_omit_copy faithful resources
      rw [resourceLeaves, Leaf.nulls_append]
      exact .cons key first rest

end

-----------------------------------------------------------------------------------------
-- Libraries and documents
-----------------------------------------------------------------------------------------

theorem AnnotationType.omits_copy (faithful : w.Faithful) (a : AnnotationType)
    : Omits (nulls a.leaves) (a.copy w).toJson a.toJson := by
  have members := (a.type.omits_copy faithful).append
    (.same (texts "allowedTargets" (a.allowedTargets.map Target.name)))
  simp only [leaves, Leaf.nulls_cons, Leaf.holdsNull, Bool.toNat_false, Nat.zero_add]
  exact .obj members

theorem Library.members_eq (l : Library)
    : l.members
      = text "usage" l.usage ++ Form.optional "schemas" l.schemas
        ++ map "types" (l.types.map fun (name, t) => (name, t.toJson))
        ++ map "traits" (l.traits.map fun (name, t) => (name, t.toJson))
        ++ Form.optional "resourceTypes" l.resourceTypes
        ++ map "annotationTypes" (l.annotationTypes.map fun (name, a) => (name, a.toJson))
        ++ Annotations.members l.annotations ++ Form.optional "securitySchemes" l.securitySchemes
        ++ map "uses" (useMembers l.uses) := by
  cases l
  rfl

/-- The leaves of a library that are null are its own ones and those of the libraries that it uses.
-/
theorem Library.nulls_allLeaves (l : Library)
    : nulls l.allLeaves = nulls l.ownLeaves + nulls ((useLeaves l.uses).map (·.2)) := by
  simp [allLeaves, leaves_eq, Function.comp_def]

/-- What is written of a library and of its copy, given what is of the libraries that it uses. -/
theorem Library.omits_copy_of {l : Library} {uses : Uses} {n : Nat} (faithful : w.Faithful)
    (used : MembersOmit n (map "uses" (useMembers uses)) (map "uses" (useMembers l.uses)))
    : MembersOmit (nulls l.ownLeaves + n) (l.copyOwn w uses).members l.members := by
  have types := table_omits_copy "types" (TypeNode.toJson_omits_copy faithful) l.types
  have traits := table_omits_copy "traits" (Trait.toJson_omits_copy faithful) l.traits
  have annotationTypes :=
    table_omits_copy "annotationTypes" (AnnotationType.omits_copy faithful) l.annotationTypes
  have front := (MembersOmit.same (text "usage" l.usage)).append (.fragment "schemas" l.schemas)
  have declared := (((front.append types).append traits).append
    (.fragment "resourceTypes" l.resourceTypes)).append annotationTypes
  have members := ((declared.append (.same (Annotations.members l.annotations))).append
    (.fragment "securitySchemes" l.securitySchemes)).append used
  rw [members_eq, members_eq]
  simp only [copyOwn, Annotations.members_copy faithful, ownLeaves, Types.leaves, Traits.leaves,
    AnnotationTypes.leaves]
  simp only [Leaf.nulls_append, Leaf.nulls_cons, Leaf.holdsNull, Leaf.nulls_annotations,
    Leaf.nulls_nil, Bool.toNat_false, Nat.zero_add, Nat.add_zero] at members ⊢
  simpa only [List.append_assoc, Nat.add_assoc] using members

variable {W : CopyingIn}

theorem isEmpty_useMembers_copy (uses : Uses)
    : (useMembers (copyUses W uses)).isEmpty = (useMembers uses).isEmpty := by
  cases uses <;> rfl

mutual

/-- The same for libraries, where the copy of each may depend on the library itself. -/
theorem Library.omits_copy (faithful : ∀ l, (W l).Faithful)
    : ∀ l : Library, MembersOmit (nulls l.allLeaves) (l.copy W).members l.members
  | ⟨_, _, _, _, _, _, _, _, uses, _⟩ => by
      have used := (useMembers_omit_copy faithful uses).map "uses" (isEmpty_useMembers_copy uses)
      rw [Library.nulls_allLeaves, Library.copy_eq]
      exact Library.omits_copy_of (faithful _) used

theorem Use.omits_copy (faithful : ∀ l, (W l).Faithful)
    : ∀ use : Use, Omits (nulls (use.leaves.map (·.2))) (use.copy W).toJson use.toJson
  | .external _ => .same _
  | .loaded library => .obj (Library.omits_copy faithful library)

theorem useMembers_omit_copy (faithful : ∀ l, (W l).Faithful)
    : ∀ uses : List (String × Use),
      MembersOmit (nulls ((useLeaves uses).map (·.2))) (useMembers (copyUses W uses))
        (useMembers uses)
  | [] => .nil
  | (name, use) :: uses => by
      have first := Use.omits_copy faithful use
      have rest := useMembers_omit_copy faithful uses
      rw [useLeaves, List.map_append, Leaf.nulls_append]
      exact .cons name first rest

end

/-- What is written of a copy is what is written of the document without what is null. -/
theorem Document.omits_copy (faithful : ∀ l, (W l).Faithful) (d : Document)
    : Omits (nulls d.allLeaves) (d.copy W).toJson d.toJson := by
  have library := d.library.omits_copy faithful
  have own := faithful d.library
  have front := (MembersOmit.same (("title", Json.str d.title) :: text "description" d.description
    ++ text "version" d.version ++ text "baseUri" d.baseUri)).append
    (Properties.omits_copy own "baseUriParameters" d.baseUriParameters)
  have middle := (front.append (.same (texts "protocols" d.protocols ++ texts "mediaType" d.mediaType
    ++ list "documentation" (d.documentation.map DocumentationItem.toJson)))).append
    (.fragment "securedBy" d.securedBy)
  have below := (resourceMembers_omit_copy own d.resources).map "resources"
    (isEmpty_resourceMembers_copy d.resources)
  have members := (middle.append library).append below
  have count : nulls d.allLeaves = nulls d.library.allLeaves + nulls d.outerLeaves := by
    simp [allLeaves, leaves, Library.allLeaves, Function.comp_def]
  rw [count]
  simp only [toJson, copy]
  simp only [outerLeaves, Resources.leaves, Leaf.nulls_append, Leaf.nulls_cons, Leaf.holdsNull,
    Bool.toNat_false, Nat.zero_add, Nat.add_zero] at members ⊢
  rw [Nat.add_left_comm]
  simpa only [List.append_assoc, Nat.add_assoc, Nat.add_comm, Nat.add_left_comm] using Omits.obj members

end Raml
