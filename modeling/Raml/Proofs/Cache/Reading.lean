import Raml.Proofs.Cache.Agreement
import Raml.Proofs.Cache.Fields
import Raml.Proofs.Documents.Leaves
import Raml.Proofs.References

/-! What is read of a document that has been written: a copy of it, in which nothing is derived and
nothing is linked.
-/

namespace Raml

open Form Form.Fields

/-- The annotation that is read where one was written. -/
def Annotation.stored (a : Annotation) : Annotation := .ofValue (a.value.bind Value.reread?)

/-- The bounds of a length, which files have themselves. -/
def Kind.bounds (kind : Kind) (s : StringFacets) (f : FileFacets) : Int64 × Int64 :=
  match kind with
  | .file => (f.minLength, f.maxLength)
  | _ => (s.minLength, s.maxLength)

/-- How a document is copied that is written and read. -/
def Copying.stored : Copying where
  names _ := ("", false)
  resolved := false
  lengths kind s f :=
    ({ s with minLength := (kind.bounds s f).1, maxLength := (kind.bounds s f).2 },
      { fileTypes := f.fileTypes })
  property _ := ""
  applied _ a := a.stored
  value _ _ v := v.reread?
  loaded _ := false

-----------------------------------------------------------------------------------------
-- Types
-----------------------------------------------------------------------------------------

/-- An annotation is read without its declaration. -/
theorem Annotation.read_toJson {a : Annotation} (sound : ∀ v ∈ a.value, v.Regular)
    : Annotation.read a.toJson = some a.stored := by
  cases value : a.value with
  | none => simp [toJson, stored, value, read]
  | some v =>
      have regular : v.Regular := sound v value
      by_cases null : v.toJson = .null
      · simp [toJson, stored, value, null, read, Value.reread?_of_null null]
      · have solid : Annotation.read v.toJson = some (.ofValue (some v.reread)) := by
          unfold read
          split
          · next same => exact absurd same null
          · rw [regular, Value.reread]
        simp [toJson, stored, value, solid, Value.reread?_of_ne_null null]

variable {j : Json} {f : Fields j}

/-- Annotations are read under the keys that they were written under. -/
theorem Form.Fields.annotations?_eq {annotations : Annotations}
    (h : f.held "annotations" = values (Annotations.members annotations))
    (sound : ∀ leaf ∈ Annotations.leaves annotations, leaf.Sound)
    : f.annotations? = some (Annotations.copy .stored annotations) := by
  obtain ⟨unique, each⟩ := List.forall_mem_cons.mp sound
  refine map?_eq h unique fun entry member => Annotation.read_toJson ?_
  exact each _ (List.mem_map_of_mem (f := fun entry => Leaf.applied entry.1 entry.2) member)

/-- The value of an example is read as what its JSON stands for. -/
theorem Example.read_toJson {kind : Kind} {e : Example}
    (sound : ∀ leaf ∈ e.leaves kind, leaf.Sound)
    : Example.read e.toJson = some (e.copy .stored kind) := by
  obtain ⟨value, applied⟩ := List.forall_mem_cons.mp sound
  rw [Example.read, toJson, fieldsOrItems?_obj]
  obtain ⟨f, found, held⟩ := exists_fields? (text "displayName" e.displayName
    ++ text "description" e.description ++ Annotations.members e.annotations
    ++ optional "value" (e.value.map Value.toJson) ++ flag "strict" true e.strict
    ++ flag "includeTag" false e.included)
  have displayName : f.text? "displayName" = some e.displayName :=
    text?_eq ((held _).trans (by simp [Annotations.members]))
  have description : f.text? "description" = some e.description :=
    text?_eq ((held _).trans (by simp [Annotations.members]))
  have annotations := annotations?_eq ((held _).trans (by simp [Annotations.members])) applied
  have strict : f.flag? "strict" true = some e.strict :=
    flag?_eq ((held _).trans (by simp [Annotations.members]))
  have included : f.flag? "includeTag" false = some e.included :=
    flag?_eq ((held _).trans (by simp [Annotations.members]))
  have read : f.get? "value" (readOptional Value.read) none = some (e.value.bind Value.reread?) := by
    have here : f.held "value" = values (optional "value" (e.value.map Value.toJson)) :=
      (held _).trans (by simp [Annotations.members])
    rw [get?_eq, here]
    cases same : e.value with
    | none => rfl
    | some v => exact v.readOptional_toJson (value v same)
  simp only [found, displayName, description, annotations, strict, included, read,
    Option.bind_eq_bind, Option.bind_some]
  rfl

/-- The keys of what a type declares apart from its facets. -/
def Declaration.keys : List String :=
  ["default", "schema", "type", "example", "examples", "displayName", "description", "annotations",
    "facets", "xml"]

/-- A declaration is read from the fields that it was written in, whatever other fields there are.
-/
theorem Form.Fields.declaration?_eq {kind : Kind} {d : Declaration}
    (h : ∀ key ∈ Declaration.keys, f.held key = under key d.members)
    (sound : ∀ leaf ∈ d.leaves kind, leaf.Sound)
    : f.declaration? = some (d.copy .stored kind) := by
  simp only [Declaration.leaves, Examples.leaves, List.forall_mem_append, List.forall_mem_cons,
    List.forall_mem_flatMap, List.not_mem_nil, false_imp_iff, implies_true, and_true] at sound
  obtain ⟨⟨⟨⟨⟨default, schema⟩, single⟩, unique, examples⟩, annotations⟩, facets, xml⟩ := sound
  simp only [Declaration.keys, List.forall_mem_cons, List.not_mem_nil, false_imp_iff, implies_true,
    and_true, Declaration.members, Annotations.members, under_append, under_optional, under_text,
    under_map, String.reduceEq, if_true, if_false, List.append_nil, List.nil_append] at h
  obtain ⟨h₁, h₂, h₃, h₄, h₅, h₆, h₇, h₈, h₉, h₁₀⟩ := h
  have example? := optional?_eq (r := Example.read) (g := Example.copy .stored kind) h₄
    fun e member => ⟨nofun, Example.read_toJson (single e (by simpa using member))⟩
  have examples := map?_eq (r := Example.read) (g := Example.copy .stored kind) h₅ unique
    fun entry member => Example.read_toJson (examples entry member)
  simp only [declaration?, fragment?_eq h₁ default, fragment?_eq h₂ schema, text?_eq h₃, example?,
    examples, text?_eq h₆, text?_eq h₇, annotations?_eq h₈ annotations, fragment?_eq h₉ facets,
    fragment?_eq h₁₀ xml, Option.bind_eq_bind, Option.bind_some]
  rfl

/-- The keys of the facets of a type. -/
def TypeNode.facetKeys : List String :=
  ["minProperties", "maxProperties", "additionalProperties", "discriminator", "discriminatorValue",
    "enum", "pattern", "uniqueItems", "items", "minItems", "maxItems", "fileTypes", "minLength",
    "maxLength", "nativeType"]

/-- What a type declares stands under its own keys only. -/
theorem TypeNode.under_declaration (t : TypeNode)
    : ∀ key ∈ Declaration.keys, under key t.members = under key t.declaration.members := by
  simp only [Declaration.keys, List.forall_mem_cons, List.not_mem_nil, false_imp_iff, implies_true,
    and_true, members_eq, ObjectFacets.boundMembers, facetMembers, ArrayFacets.members, under_append,
    under_optional, under_text, under_flag, under_number, under_list, under_texts, under_map,
    under_unless, String.reduceEq, if_false, List.append_nil]

/-- An unsigned word is read as it was written. -/
theorem readUInt64_toNat (n : UInt64) : readUInt64 (.int n.toNat) = some n := by
  have small : n.toNat < UInt64.size := n.toNat_lt
  simp only [readUInt64, uint64?]
  rw [if_pos ⟨Int.natCast_nonneg _, by exact_mod_cast small⟩]
  simp

/-- The kind of a type is read where it is written; nothing is written of `any`. -/
theorem Form.Fields.kind?_eq {kind : Kind} (same : Kind.ofName kind.name = kind)
    (h : f.held "nativeType"
      = values (if kind = .any then [] else [("nativeType", .str kind.name)]))
    : (f.text? "nativeType").map Kind.ofName = some kind := by
  rw [text?, get?_eq, h]
  by_cases any : kind = .any
  · simp only [any, if_true]
    rfl
  · simp only [any, if_false, values, List.map_cons, List.map_nil, readText, Option.map_some, same]

/-- Given its properties, a type is read from the fields of its declaration and its facets. -/
theorem Form.Fields.typeWithProperties?_eq {t : TypeNode}
    (declared : ∀ key ∈ Declaration.keys, f.held key = under key t.members)
    (facets : ∀ key ∈ TypeNode.facetKeys, f.held key = under key t.members)
    (sound : ∀ leaf ∈ t.ownLeaves, leaf.Sound) (properties : Properties)
    : f.typeWithProperties? properties = some ((t.copyOwn .stored).withProperties properties) := by
  simp only [TypeNode.ownLeaves, List.forall_mem_append, List.forall_mem_cons, List.forall_mem_map,
    List.not_mem_nil, false_imp_iff, implies_true, and_true, Leaf.Sound] at sound
  obtain ⟨⟨⟨⟨names, kind, -⟩, declaration⟩, enumeration⟩, discriminatorValue, items⟩ := sound
  have declaration := declaration?_eq (f := f)
    (fun key member => (declared key member).trans (t.under_declaration key member)) declaration
  simp only [TypeNode.facetKeys, List.forall_mem_cons, List.not_mem_nil, false_imp_iff,
    implies_true, and_true, TypeNode.members_eq, ObjectFacets.boundMembers, TypeNode.facetMembers,
    ArrayFacets.members, Declaration.members, Annotations.members, under_append, under_optional,
    under_text, under_flag, under_number, under_list, under_texts, under_map, under_unless,
    String.reduceEq, if_true, if_false, List.append_nil, List.nil_append] at facets
  obtain ⟨h₁, h₂, h₃, h₄, h₅, h₆, h₇, h₈, h₉, h₁₀, h₁₁, h₁₂, h₁₃, h₁₄, h₁₅⟩ := facets
  have least := optional?_eq (r := readUInt64) (g := id) h₁
    fun n _ => ⟨by simp, readUInt64_toNat n⟩
  have most := optional?_eq (r := readUInt64) (g := id) h₂
    fun n _ => ⟨by simp, readUInt64_toNat n⟩
  have discriminator := optional?_eq (r := readText) (g := id) h₄ fun s _ => ⟨by simp, rfl⟩
  have values := list?_eq (r := Value.read) (g := Value.reread) h₆
    fun v member => Value.read_toJson (enumeration v member)
  have object : f.objectFacets? properties = some { t.object with
      properties, discriminatorValue := Fragment.kept t.object.discriminatorValue } := by
    simp only [objectFacets?, least, most, flag?_eq h₃, discriminator,
      fragment?_eq h₅ discriminatorValue, Option.map_id, id, Option.bind_eq_bind, Option.bind_some]
  obtain ⟨name, read, same⟩ := Option.map_eq_some_iff.mp (kind?_eq kind h₁₅)
  simp only [typeWithProperties?, declaration, object, values, text?_eq h₇, flag?_eq h₈,
    fragment?_eq h₉ items, number?_eq h₁₀, number?_eq h₁₁, texts?_eq h₁₂, number?_eq h₁₃,
    number?_eq h₁₄, read, same, Option.bind_eq_bind, Option.bind_some]
  rfl

/-- The keys of a type, of which its properties are one. -/
theorem TypeNode.under_properties (t : TypeNode)
    : under "properties" t.members = values (map "properties" (propertyMembers t.properties)) := by
  simp [members_eq, Declaration.members, Annotations.members, ObjectFacets.boundMembers,
    facetMembers, ArrayFacets.members]

/-- A type is sound if its own leaves are, each of its properties stands once and under its name,
and their types are sound. -/
theorem TypeNode.sound_iff {t : TypeNode}
    : (∀ leaf ∈ t.leaves, leaf.Sound)
      ↔ (∀ leaf ∈ t.ownLeaves, leaf.Sound) ∧ (Keyed.keys t.properties).Nodup
        ∧ ∀ key p, (key, p) ∈ t.properties → p.name = key ∧ ∀ leaf ∈ p.type.leaves, leaf.Sound := by
  rw [leaves_eq]
  simp only [Properties.leaves, propertyLeaves_eq, List.forall_mem_append, List.forall_mem_cons,
    List.forall_mem_flatMap, Leaf.Sound, Prod.forall]

/-- Properties are read without names. -/
theorem copyProperties_stored (properties : Properties)
    : copyProperties .stored properties = Keyed.mapValues (Property.copy .stored "") properties := by
  rw [copyProperties_eq]
  refine List.map_congr_left fun entry _ => ?_
  obtain ⟨key, ⟨type, required, name⟩⟩ := entry
  rfl

/-- Where each property is read as its copy, so are all of them. -/
theorem Form.Fields.map?_properties {properties : Properties} {key : String}
    (h : f.held key = values (map key (propertyMembers properties)))
    (unique : (Keyed.keys properties).Nodup)
    (each : ∀ entry ∈ properties,
      Property.read entry.2.toJson = some (entry.2.copy .stored ""))
    : f.map? key Property.read = some (copyProperties .stored properties) := by
  rw [propertyMembers_eq] at h
  rw [copyProperties_stored]
  exact map?_eq h unique each

/-- What is read of a property, given what is read of those of its type. -/
theorem Property.read_toJson_of {p : Property} (sound : ∀ leaf ∈ p.type.leaves, leaf.Sound)
    (inside : ∀ entry ∈ p.type.properties,
      Property.read entry.2.toJson = some (entry.2.copy .stored ""))
    : Property.read p.toJson = some (p.copy .stored "") := by
  obtain ⟨own, unique, -⟩ := TypeNode.sound_iff.mp sound
  obtain ⟨type, required, name⟩ := p
  have apart (key : String) (other : key ≠ "required")
      : under key (type.members ++ flag "required" true required) = under key type.members := by
    simp [other.symm]
  rw [Property.read, toJson, members]
  obtain ⟨f, found, held⟩ := exists_fields? (type.members ++ flag "required" true required)
  have declared : ∀ key ∈ Declaration.keys, f.held key = under key type.members := by
    intro key member
    refine (held key).trans (apart key ?_)
    rintro rfl
    revert member
    decide
  have facets : ∀ key ∈ TypeNode.facetKeys, f.held key = under key type.members := by
    intro key member
    refine (held key).trans (apart key ?_)
    rintro rfl
    revert member
    decide
  have properties := f.map?_properties (((held _).trans (apart _ (by decide))).trans
    type.under_properties) unique inside
  have whole := typeWithProperties?_eq declared facets own (copyProperties .stored type.properties)
  have required : f.flag? "required" true = some required :=
    flag?_eq ((held _).trans (by
      simp [TypeNode.members_eq, Declaration.members, Annotations.members,
        ObjectFacets.boundMembers, TypeNode.facetMembers, ArrayFacets.members]))
  simp only [found, each?_eq, properties, whole, required, Option.bind_eq_bind, Option.bind_some]
  rw [copy, TypeNode.copy_eq]
  rfl

/-- By induction on the type of the property. -/
theorem Property.read_toJson {p : Property} (sound : ∀ leaf ∈ p.type.leaves, leaf.Sound)
    : Property.read p.toJson = some (p.copy .stored "") := by
  obtain ⟨t, required, name⟩ := p
  induction t using TypeNode.induct generalizing required name with
  | step t ih =>
      refine read_toJson_of sound fun entry member => ?_
      obtain ⟨key, type, required, name⟩ := entry
      exact ih key _ member required name ((TypeNode.sound_iff.mp sound).2.2 key _ member).2

/-- Properties are read wherever they stand in a field of their own. -/
theorem Form.Fields.properties?_eq {properties : Properties} {key : String}
    (h : f.held key = values (map key (propertyMembers properties)))
    (sound : ∀ leaf ∈ Properties.leaves properties, leaf.Sound)
    : f.properties? key = some (copyProperties .stored properties) := by
  simp only [Properties.leaves, propertyLeaves_eq, List.forall_mem_cons, List.forall_mem_flatMap,
    Leaf.Sound] at sound
  refine map?_properties h sound.1 fun entry member => ?_
  exact Property.read_toJson (sound.2 entry member).2

/-- A type is read from members among which there are others. -/
theorem TypeNode.read_of_members {t : TypeNode} {members : Members}
    (declared : ∀ key ∈ Declaration.keys, under key members = under key t.members)
    (facets : ∀ key ∈ facetKeys, under key members = under key t.members)
    (below : under "properties" members = under "properties" t.members)
    (sound : ∀ leaf ∈ t.leaves, leaf.Sound)
    : TypeNode.read (.obj members) = some (t.copy .stored) := by
  obtain ⟨own, unique, inside⟩ := sound_iff.mp sound
  obtain ⟨f, found, held⟩ := exists_fields? members
  have properties := f.map?_properties (((held _).trans below).trans t.under_properties) unique
    fun entry member => Property.read_toJson (inside entry.1 entry.2 member).2
  have whole := typeWithProperties?_eq (fun key member => (held key).trans (declared key member))
    (fun key member => (held key).trans (facets key member)) own
    (copyProperties .stored t.properties)
  rw [read, found, copy_eq]
  simp only [properties, whole, Option.bind_eq_bind, Option.bind_some]

/-- What is read of a type that was written is its copy, by induction on the type. -/
theorem TypeNode.read_toJson {t : TypeNode} (sound : ∀ leaf ∈ t.leaves, leaf.Sound)
    : TypeNode.read t.toJson = some (t.copy .stored) :=
  read_of_members (fun _ _ => rfl) (fun _ _ => rfl) rfl sound

/-- Places are read by the names that they are written with. -/
theorem Target.read_name (target : Target) : Target.read (.str target.name) = some target := by
  cases target <;> decide

/-- A declaration of an annotation is read as its type is, with the places that it allows. -/
theorem AnnotationType.read_toJson {a : AnnotationType} (sound : ∀ leaf ∈ a.leaves, leaf.Sound)
    : AnnotationType.read a.toJson = some (a.copy .stored) := by
  obtain ⟨-, inside⟩ := List.forall_mem_cons.mp sound
  have apart (key : String) (other : key ≠ "allowedTargets")
      : under key (a.type.members ++ texts "allowedTargets" (a.allowedTargets.map Target.name))
        = under key a.type.members := by
    simp [other.symm]
  have own : under "allowedTargets" a.type.members = [] := by
    simp [TypeNode.members_eq, Declaration.members, Annotations.members, ObjectFacets.boundMembers,
      TypeNode.facetMembers, ArrayFacets.members]
  have type : TypeNode.read a.toJson = some (a.type.copy .stored) := by
    refine TypeNode.read_of_members (fun key member => apart key ?_)
      (fun key member => apart key ?_) (apart _ (by decide)) inside
    · rintro rfl
      revert member
      decide
    · rintro rfl
      revert member
      decide
  obtain ⟨f, found, held⟩ := exists_fields? (a.type.members
    ++ texts "allowedTargets" (a.allowedTargets.map Target.name))
  have targets : f.list? "allowedTargets" Target.read = some (a.allowedTargets.map id) := by
    refine list?_eq (w := fun target => .str target.name) ((held _).trans ?_)
      fun target _ => Target.read_name target
    simp [own, texts, Function.comp_def]
  rw [toJson] at type ⊢
  rw [AnnotationType.read, found]
  simp only [type, targets, Option.bind_eq_bind, Option.bind_some, List.map_id]
  rfl

-----------------------------------------------------------------------------------------
-- Methods and resources
-----------------------------------------------------------------------------------------

/-- Bodies are read under their media types. -/
theorem Form.Fields.bodies?_eq {bodies : Bodies}
    (h : f.held "body" = values (Bodies.members bodies))
    (sound : ∀ leaf ∈ Bodies.leaves bodies, leaf.Sound)
    : f.bodies? = some (Keyed.mapValues (TypeNode.copy .stored) bodies) := by
  simp only [Bodies.leaves, List.forall_mem_cons, List.forall_mem_flatMap] at sound
  exact map?_eq h sound.1 fun entry member => TypeNode.read_toJson (sound.2 entry member)

/-- A response is read field by field. -/
theorem Response.read_toJson {r : Response} (sound : ∀ leaf ∈ r.leaves, leaf.Sound)
    : Response.read r.toJson = some (r.copy .stored) := by
  simp only [leaves, List.forall_mem_append] at sound
  obtain ⟨⟨annotations, headers⟩, bodies⟩ := sound
  rw [Response.read, toJson, fieldsOrItems?_obj]
  obtain ⟨f, found, held⟩ := exists_fields? (text "description" r.description
    ++ Annotations.members r.annotations ++ map "headers" (propertyMembers r.headers)
    ++ Bodies.members r.bodies)
  have description : f.text? "description" = some r.description :=
    text?_eq ((held _).trans (by simp [Annotations.members, Bodies.members]))
  have annotations := annotations?_eq
    ((held _).trans (by simp [Annotations.members, Bodies.members])) annotations
  have headers := properties?_eq
    ((held "headers").trans (by simp [Annotations.members, Bodies.members])) headers
  have bodies := bodies?_eq ((held _).trans (by simp [Annotations.members, Bodies.members])) bodies
  simp only [found, description, annotations, headers, bodies, Option.bind_eq_bind,
    Option.bind_some]
  rfl

/-- A status is read from its digits. -/
theorem readStatus_toString (status : UInt16) : readStatus (toString status.toNat) = some status := by
  have digits : (toString status.toNat).toList = Nat.toDigits 10 status.toNat := by
    rw [Nat.toString_eq_repr, Nat.repr_eq_ofList_toDigits, String.toList_ofList]
  have known := Json.Cursor.digitsValue_toDigits status.toNat
  have digit : ∀ d ∈ Nat.toDigits 10 status.toNat, d.isDigit = true := fun d member =>
    Nat.isDigit_of_mem_toDigits (by decide) (by decide) member
  have plain := Json.Cursor.toDigits_ne_zero_cons status.toNat
  have some : Nat.toDigits 10 status.toNat ≠ [] := Nat.toDigits_ne_nil
  have small : status.toNat < 65536 := status.toNat_lt
  rw [readStatus, digits]
  generalize Nat.toDigits 10 status.toNat = ds at *
  have value : ds.foldl (fun n d => n * 10 + (d.toNat - 48)) 0 = status.toNat := by
    simp only [Decimal.digitsValue, Decimal.digitValue, Nat.mul_comm] at known
    exact known
  have zero : (ds.length > 1 && ds.head? == Option.some '0') = false := by
    match ds, plain with
    | [], _ | [_], _ => rfl
    | d :: e :: ds, plain =>
        have other : d ≠ '0' := fun same => plain e ds (by rw [same])
        simp [other]
  simpa [value, zero, small, some] using digit

namespace Responses

/-- A response under a new status is put behind the others. -/
theorem insert_of_not_mem {responses : Responses} {status : UInt16} (r : Response)
    (h : status ∉ responses.map (·.1))
    : Responses.insert responses status r = responses ++ [(status, r)] := by
  induction responses with
  | nil => rfl
  | cons entry responses ih =>
      obtain ⟨first, q⟩ := entry
      obtain ⟨other, later⟩ : first ≠ status ∧ status ∉ responses.map (·.1) := by
        simpa [eq_comm] using h
      simp [insert, other, ih later]

theorem statuses_copy (w : Copying) (responses : Responses)
    : (Responses.copy w responses).map (·.1) = responses.map (·.1) := by
  simp [copy, Function.comp_def]

/-- Statuses are read from the keys, where each stands once. -/
theorem read_responseMembers {responses : Responses}
    (sound : ∀ leaf ∈ Responses.leaves responses, leaf.Sound)
    : Responses.read (.obj (responseMembers responses)) = some (Responses.copy .stored responses) := by
  simp only [leaves, List.forall_mem_cons, List.forall_mem_flatMap, Leaf.Sound] at sound
  obtain ⟨unique, each⟩ := sound
  -- What has been read so far stands in front of the rest.
  suffices all : ∀ done rest : Responses, ((done ++ rest).map (·.1)).Nodup
      → (∀ entry ∈ rest, ∀ leaf ∈ entry.2.leaves, leaf.Sound)
      → (responseMembers rest).foldlM (fun found entry => do
          some (Responses.insert found (← readStatus entry.1) (← Response.read entry.2)))
          (Responses.copy .stored done)
        = some (Responses.copy .stored (done ++ rest)) from all [] responses unique each
  intro done rest
  induction rest generalizing done with
  | nil => simp [responseMembers]
  | cons entry rest ih =>
      obtain ⟨status, r⟩ := entry
      intro unique each
      obtain ⟨first, later⟩ := List.forall_mem_cons.mp each
      have moved : done ++ (status, r) :: rest = (done ++ [(status, r)]) ++ rest := by simp
      have new : status ∉ (Responses.copy .stored done).map (·.1) := by
        rw [statuses_copy]
        intro member
        simp only [List.map_append, List.map_cons] at unique
        exact (List.nodup_append.mp unique).2.2 _ member _ List.mem_cons_self rfl
      have step : Responses.insert (Responses.copy .stored done) status (r.copy .stored)
          = Responses.copy .stored (done ++ [(status, r)]) := by
        rw [insert_of_not_mem _ new]
        simp [copy]
      have rest := ih (done ++ [(status, r)]) (moved ▸ unique) later
      rw [moved, ← rest, ← step]
      simp only [responseMembers, List.map_cons, List.foldlM_cons, readStatus_toString,
        Response.read_toJson first, Option.bind_eq_bind, Option.bind_some]

end Responses

/-- The keys of a method. -/
def Method.keys : List String :=
  ["displayName", "description", "annotations", "queryParameters", "headers", "queryString",
    "responses", "body", "protocols", "securedBy"]

/-- The uses of traits stand under a key of their own. -/
theorem Method.under_is (m : Method)
    : under "is" m.members = values (list "is" (traitItems m.is)) := by
  obtain ⟨_, _, _, _, _, _, _, _, _, _, _, _⟩ := m
  simp [members, Annotations.members, Bodies.members]

/-- What is read of a method, given what is of its responses and of the traits it uses. -/
theorem Form.Fields.methodWithTraits?_eq {m : Method} {read : Json → Option Responses}
    {is : List Trait} {responses : Responses}
    (h : ∀ key ∈ Method.keys, f.held key = under key m.members)
    (sound : ∀ leaf ∈ m.leaves, leaf.Sound)
    (inside : f.get? "responses" read [] = some responses)
    : f.methodWithTraits? read is
      = some { m.copy .stored with is, responses } := by
  obtain ⟨displayName, description, annotations, queryParameters, headers, queryString, _, bodies,
    protocols, uses, securedBy, _⟩ := m
  simp only [Method.leaves, List.forall_mem_append, List.forall_mem_cons, List.not_mem_nil,
    false_imp_iff, implies_true, and_true] at sound
  obtain ⟨⟨⟨⟨⟨⟨applied, parameters⟩, others⟩, query, -⟩, bodied⟩, -⟩, secured⟩ := sound
  simp only [Method.keys, List.forall_mem_cons, List.not_mem_nil, false_imp_iff, implies_true,
    and_true, Method.members, Annotations.members, Bodies.members, under_append, under_optional,
    under_text, under_list, under_texts, under_map, String.reduceEq, if_true, if_false,
    List.append_nil, List.nil_append] at h
  obtain ⟨h₁, h₂, h₃, h₄, h₅, h₆, -, h₈, h₉, h₁₀⟩ := h
  simp only [methodWithTraits?, text?_eq h₁, text?_eq h₂, annotations?_eq h₃ applied,
    properties?_eq h₄ parameters, properties?_eq h₅ others, fragment?_eq h₆ query, inside,
    bodies?_eq h₈ bodied, texts?_eq h₉, fragment?_eq h₁₀ secured, Option.bind_eq_bind,
    Option.bind_some]
  rfl

/-- A method is read only if its responses are. -/
theorem Form.Fields.exists_responses {read : Json → Option Responses} {is : List Trait} {m : Method}
    (ok : f.methodWithTraits? read is = some m)
    : ∃ responses, f.get? "responses" read [] = some responses := by
  cases found : f.get? "responses" read [] with
  | some responses => exact ⟨responses, rfl⟩
  | none => simp [methodWithTraits?, found] at ok

/-- A trait is read only if it is without responses. -/
theorem Form.Fields.responses_of_readNone {responses found : Responses}
    (h : f.held "responses" = values (map "responses" (responseMembers responses)))
    (ok : f.get? "responses" Responses.readNone [] = some found)
    : responses = [] ∧ found = [] := by
  rw [get?_eq, h] at ok
  cases responses with
  | nil =>
      cases ok
      exact ⟨rfl, rfl⟩
  | cons entry responses => cases ok

/-- What is read of a trait, given what is of the traits that it uses. -/
theorem Trait.read_toJson_of {t t' : Trait} (sound : ∀ leaf ∈ t.leaves, leaf.Sound)
    (inside : ∀ found, (traitItems t.method.is).mapM Trait.read = some found
      → found = copyTraits .stored t.method.is)
    (ok : Trait.read t.toJson = some t')
    : t' = t.copy .stored := by
  obtain ⟨reference, method, usage, resourcePath, resourcePathName, methodName, source⟩ := t
  rw [Trait.read, toJson, members] at ok
  obtain ⟨f, found, held⟩ := exists_fields? (text "name" reference ++ method.members
    ++ text "usage" usage ++ text "resourcePath" resourcePath
    ++ text "resourcePathName" resourcePathName ++ text "methodName" methodName)
  have own : ∀ key ∈ "is" :: Method.keys, f.held key = under key method.members := by
    simp only [Method.keys, List.forall_mem_cons, List.not_mem_nil, false_imp_iff, implies_true,
      and_true, held, under_append, under_text, String.reduceEq, if_false, List.append_nil,
      List.nil_append]
  have others : ∀ key ∈ ["name", "usage", "resourcePath", "resourcePathName", "methodName"],
      under key method.members = [] := by
    cases method
    simp [Method.members, Annotations.members, Bodies.members]
  obtain ⟨is, keys⟩ := List.forall_mem_cons.mp own
  simp only [List.forall_mem_cons, List.not_mem_nil, false_imp_iff, implies_true, and_true]
    at others
  obtain ⟨none₁, none₂, none₃, none₄, none₅⟩ := others
  have reference := text?_eq (f := f) (s := reference) ((held "name").trans (by simp [none₁]))
  have usage := text?_eq (f := f) (s := usage) ((held "usage").trans (by simp [none₂]))
  have path := text?_eq (f := f) (s := resourcePath)
    ((held "resourcePath").trans (by simp [none₃]))
  have pathName := text?_eq (f := f) (s := resourcePathName)
    ((held "resourcePathName").trans (by simp [none₄]))
  have name := text?_eq (f := f) (s := methodName) ((held "methodName").trans (by simp [none₅]))
  simp only [found, eachItem?_eq, reference, usage, path, pathName, name, Option.bind_eq_bind,
    Option.bind_some] at ok
  obtain ⟨uses, read, ok⟩ := Option.bind_eq_some_iff.mp ok
  obtain ⟨m, ofMethod, ok⟩ := Option.bind_eq_some_iff.mp ok
  cases ok
  obtain ⟨responses, results⟩ := exists_responses ofMethod
  have written : under "responses" method.members
      = values (map "responses" (responseMembers method.responses)) := by
    cases method
    simp [Method.members, Annotations.members, Bodies.members]
  obtain ⟨empty, rfl⟩ := responses_of_readNone ((keys _ (by decide)).trans written) results
  rw [methodWithTraits?_eq keys sound results] at ofMethod
  cases ofMethod
  rw [list?_yields (is.trans method.under_is) inside read]
  cases method
  cases empty
  rfl

mutual

/-- What is read of a trait is its copy, if anything is. That something is read is known from the
document as a whole. -/
theorem Trait.read_toJson
    : ∀ t : Trait, (∀ leaf ∈ t.leaves, leaf.Sound) → ∀ t', Trait.read t.toJson = some t'
      → t' = t.copy .stored
  | ⟨_, ⟨_, _, _, _, _, _, _, _, _, is, _, _⟩, _, _, _, _, _⟩, sound, _, ok => by
      refine Trait.read_toJson_of sound (mapM_traitItems is ?_) ok
      simp only [Trait.leaves, Method.leaves, List.forall_mem_append] at sound
      exact sound.1.2

theorem mapM_traitItems
    : ∀ traits : List Trait, (∀ leaf ∈ traitLeaves traits, leaf.Sound) → ∀ found,
      (traitItems traits).mapM Trait.read = some found → found = copyTraits .stored traits
  | [], _, _, ok => by
      cases ok
      rfl
  | t :: traits, sound, found, ok => by
      obtain ⟨first, rest⟩ := List.forall_mem_append.mp sound
      rw [traitItems, List.mapM_cons] at ok
      obtain ⟨t', read, ok⟩ := Option.bind_eq_some_iff.mp ok
      obtain ⟨others, later, ok⟩ := Option.bind_eq_some_iff.mp ok
      cases ok
      rw [Trait.read_toJson t first t' read, mapM_traitItems traits rest others later, copyTraits]

end

/-- The same for the traits that something uses. -/
theorem Form.Fields.traits?_yields {traits found : List Trait}
    (h : f.held "is" = values (list "is" (traitItems traits)))
    (sound : ∀ leaf ∈ traitLeaves traits, leaf.Sound) (ok : f.list? "is" Trait.read = some found)
    : found = copyTraits .stored traits :=
  list?_yields h (mapM_traitItems traits sound) ok

/-- The same for methods. -/
theorem Method.read_toJson {m m' : Method} (sound : ∀ leaf ∈ m.leaves, leaf.Sound)
    (ok : Method.read m.toJson = some m')
    : m' = m.copy .stored := by
  rw [Method.read, toJson, fieldsOrItems?_obj] at ok
  obtain ⟨f, found, held⟩ := exists_fields? m.members
  simp only [found, Option.bind_eq_bind, Option.bind_some] at ok
  obtain ⟨is, read, ok⟩ := Option.bind_eq_some_iff.mp ok
  have written : under "responses" m.members
      = values (map "responses" (responseMembers m.responses)) := by
    cases m
    simp [members, Annotations.members, Bodies.members]
  have parts := sound
  simp only [leaves_eq, List.forall_mem_append, List.forall_mem_cons] at parts
  have results : f.get? "responses" Responses.read [] = some (Responses.copy .stored m.responses) := by
    rw [get?_eq, held, written]
    have all := Responses.read_responseMembers parts.1.1.1.2.2
    cases same : m.responses with
    | nil => rfl
    | cons entry responses =>
        rw [same] at all
        exact all
  rw [methodWithTraits?_eq (fun key _ => held key) sound results] at ok
  cases ok
  rw [traits?_yields ((held _).trans m.under_is) parts.1.2 read]
  cases m
  rfl

/-- What is read of a resource, given what is of those below it. -/
theorem Resource.read_toJson_of {r r' : Resource} (sound : ∀ leaf ∈ r.leaves, leaf.Sound)
    (inside : ∀ entry ∈ r.resources, ∀ below, Resource.read entry.2.toJson = some below
      → below = entry.2.copy .stored)
    (ok : Resource.read r.toJson = some r')
    : r' = r.copy .stored := by
  obtain ⟨displayName, description, annotations, methods, is, type, securedBy, uriParameters,
    resources⟩ := r
  simp only [leaves, methodLeaves, List.forall_mem_append, List.forall_mem_cons,
    List.forall_mem_flatMap, List.not_mem_nil, false_imp_iff, implies_true, and_true] at sound
  obtain ⟨⟨⟨⟨⟨applied, named, each⟩, uses⟩, typed, secured⟩, parameters⟩, keyed, -⟩ := sound
  rw [Resource.read, toJson, fieldsOrItems?_obj] at ok
  obtain ⟨f, found, held⟩ := exists_fields? (text "displayName" displayName
    ++ text "description" description ++ Annotations.members annotations
    ++ map "methods" (methods.map fun entry => (entry.1, entry.2.toJson))
    ++ list "is" (traitItems is) ++ optional "type" type ++ optional "securedBy" securedBy
    ++ map "uriParameters" (propertyMembers uriParameters)
    ++ map "resources" (resourceMembers resources))
  simp only [Annotations.members, under_append, under_optional, under_text, under_list,
    under_map] at held
  have displayName := text?_eq (f := f) (s := displayName) ((held "displayName").trans (by simp))
  have description := text?_eq (f := f) (s := description) ((held "description").trans (by simp))
  have annotations := annotations?_eq (f := f) ((held "annotations").trans (by simp; rfl)) applied
  have type : f.fragment? "type" = some (Fragment.kept type) :=
    fragment?_eq ((held "type").trans (by simp)) typed
  have securedBy := fragment?_eq (f := f) ((held "securedBy").trans (by simp)) secured
  have parameters := properties?_eq (f := f) ((held "uriParameters").trans (by simp)) parameters
  simp only [found, each?_eq, displayName, description, annotations, type, securedBy, parameters,
    Option.bind_eq_bind, Option.bind_some] at ok
  obtain ⟨below, readBelow, ok⟩ := Option.bind_eq_some_iff.mp ok
  obtain ⟨methods', readMethods, ok⟩ := Option.bind_eq_some_iff.mp ok
  obtain ⟨uses', readUses, ok⟩ := Option.bind_eq_some_iff.mp ok
  cases ok
  rw [map?_yields ((held "resources").trans (by simp [resourceMembers_eq])) keyed inside readBelow,
    map?_yields ((held "methods").trans (by simp)) named
      (fun entry member m' ok => Method.read_toJson (each entry member) ok) readMethods,
    traits?_yields ((held "is").trans (by simp)) uses readUses, copy, copyResources_eq]

mutual

/-- The same for resources, by induction on those below them. -/
theorem Resource.read_toJson
    : ∀ r : Resource, (∀ leaf ∈ r.leaves, leaf.Sound) → ∀ r', Resource.read r.toJson = some r'
      → r' = r.copy .stored
  | ⟨_, _, _, _, _, _, _, _, resources⟩, sound, _, ok => by
      refine Resource.read_toJson_of sound (read_resourceMembers resources ?_) ok
      simp only [Resource.leaves, List.forall_mem_append, List.forall_mem_cons] at sound
      exact sound.2.2

theorem read_resourceMembers
    : ∀ resources : List (String × Resource), (∀ leaf ∈ resourceLeaves resources, leaf.Sound)
      → ∀ entry ∈ resources, ∀ below, Resource.read entry.2.toJson = some below
        → below = entry.2.copy .stored
  | [], _ => nofun
  | (key, r) :: resources, sound => by
      obtain ⟨first, rest⟩ := List.forall_mem_append.mp sound
      have own := Resource.read_toJson r first
      have others := read_resourceMembers resources rest
      intro entry member
      rcases List.mem_cons.mp member with rfl | later
      · exact own
      · exact others entry later

end

-----------------------------------------------------------------------------------------
-- Libraries and documents
-----------------------------------------------------------------------------------------

/-- How all libraries of a document are copied that is written and read. -/
def CopyingIn.stored : CopyingIn := fun _ => .stored

/-- The keys of a library. -/
def Library.fieldKeys : List String :=
  ["usage", "schemas", "types", "traits", "resourceTypes", "annotationTypes", "annotations",
    "securitySchemes", "uses"]

/-- What is read of a library, given what is of those that it uses. -/
theorem libraryOfFields?_yields {l l' : Library}
    (h : ∀ key ∈ Library.fieldKeys, f.held key = under key l.members)
    (sound : ∀ leaf ∈ l.ownLeaves, leaf.Sound)
    (inside : ∀ entry ∈ l.uses, ∀ use, Use.read entry.2.toJson = some use
      → use = entry.2.copy .stored)
    (ok : libraryOfFields? j f = some l')
    : l' = l.copy .stored := by
  have usesMembers : useMembers l.uses = l.uses.map fun entry => (entry.1, entry.2.toJson) := by
    generalize l.uses = uses
    induction uses with
    | nil => rfl
    | cons entry uses ih => simp [useMembers, ih]
  simp only [Library.fieldKeys, List.forall_mem_cons, List.not_mem_nil, false_imp_iff, implies_true,
    and_true, Library.members_eq, usesMembers, Annotations.members, under_append, under_optional,
    under_text, under_map, String.reduceEq, if_true, if_false, List.append_nil, List.nil_append] at h
  obtain ⟨h₁, h₂, h₃, h₄, h₅, h₆, h₇, h₈, h₉⟩ := h
  simp only [Library.ownLeaves, Types.leaves, Traits.leaves, AnnotationTypes.leaves,
    List.forall_mem_append, List.forall_mem_cons, List.forall_mem_flatMap, List.not_mem_nil,
    false_imp_iff, implies_true, and_true] at sound
  obtain ⟨⟨⟨⟨⟨schemas, typeKeys, types⟩, traitKeys, traits⟩, resourceTypes, declaredKeys, declared⟩,
    applied⟩, securitySchemes, useKeys⟩ := sound
  have types := map?_eq h₃ typeKeys fun entry member => TypeNode.read_toJson (types entry member)
  have declared := map?_eq h₆ declaredKeys
    fun entry member => AnnotationType.read_toJson (declared entry member)
  rw [libraryOfFields?] at ok
  simp only [each?_eq, text?_eq h₁, fragment?_eq h₂ schemas, types, fragment?_eq h₅ resourceTypes,
    declared, annotations?_eq h₇ applied, fragment?_eq h₈ securitySchemes, Option.bind_eq_bind,
    Option.bind_some] at ok
  obtain ⟨uses, readUses, ok⟩ := Option.bind_eq_some_iff.mp ok
  obtain ⟨traits', readTraits, ok⟩ := Option.bind_eq_some_iff.mp ok
  cases ok
  rw [map?_yields h₉ useKeys inside readUses, map?_yields h₄ traitKeys
    (fun entry member t' ok => Trait.read_toJson entry.2 (traits entry member) t' ok) readTraits,
    Library.copy_eq, copyUses_eq]
  rfl

mutual

/-- The same for libraries, by induction on those that they use. A library may stand among fields of
a document. -/
theorem Library.read_members
    : ∀ l : Library, (∀ entry ∈ l.leaves, entry.2.Sound)
      → ∀ {j : Json} {f : Fields j}, (∀ key ∈ Library.fieldKeys, f.held key = under key l.members)
      → ∀ l', libraryOfFields? j f = some l' → l' = l.copy .stored
  | ⟨_, _, _, _, _, _, _, _, uses, _⟩, sound, _, _, h, _, ok => by
      simp only [Library.leaves, List.forall_mem_append, List.forall_mem_map] at sound
      exact libraryOfFields?_yields h sound.1 (read_useMembers uses sound.2) ok

theorem Use.read_toJson
    : ∀ use : Use, (∀ entry ∈ use.leaves, entry.2.Sound) → ∀ use', Use.read use.toJson = some use'
      → use' = use.copy .stored
  | .external path, _, _, ok => by
      rw [Use.read] at ok
      cases ok
      rfl
  | .loaded library, sound, _, ok => by
      rw [Use.read, Use.toJson] at ok
      obtain ⟨f, found, held⟩ := exists_fields? library.members
      simp only [readText, fieldsOrItems?_obj, found, Option.bind_eq_bind, Option.bind_some] at ok
      obtain ⟨l', read, ok⟩ := Option.bind_eq_some_iff.mp ok
      cases ok
      rw [Library.read_members library sound (fun key _ => held key) l' read]
      rfl

theorem read_useMembers
    : ∀ uses : List (String × Use), (∀ entry ∈ useLeaves uses, entry.2.Sound)
      → ∀ entry ∈ uses, ∀ use, Use.read entry.2.toJson = some use → use = entry.2.copy .stored
  | [], _ => nofun
  | (name, use) :: uses, sound => by
      obtain ⟨first, rest⟩ := List.forall_mem_append.mp sound
      have own := Use.read_toJson use first
      have others := read_useMembers uses rest
      intro entry member
      rcases List.mem_cons.mp member with rfl | later
      · exact own
      · exact others entry later

end

/-- The keys of a document that its library does not have. -/
def Document.fieldKeys : List String :=
  ["title", "description", "version", "baseUri", "baseUriParameters", "protocols", "mediaType",
    "documentation", "securedBy", "resources"]

/-- A library has no members under the keys of a document. -/
theorem Library.under_fieldKeys (l : Library)
    : ∀ key ∈ Document.fieldKeys, under key l.members = [] := by
  simp only [Document.fieldKeys, List.forall_mem_cons, List.not_mem_nil, false_imp_iff,
    implies_true, and_true, members_eq, Annotations.members, under_append, under_optional,
    under_text, under_map, String.reduceEq, if_false, List.append_nil]

/-- Documentation is read as it was written. -/
theorem DocumentationItem.read_toJson (d : DocumentationItem)
    : DocumentationItem.read d.toJson = some d := by
  rw [read, toJson, fieldsOrItems?_obj]
  obtain ⟨f, found, held⟩ := exists_fields? [("title", .str d.title), ("content", .str d.content)]
  have title : f.text? "title" = some d.title := by
    rw [text?, get?_eq, held]
    rfl
  have content : f.text? "content" = some d.content := by
    rw [text?, get?_eq, held]
    rfl
  simp only [found, title, content, Option.bind_eq_bind, Option.bind_some]

/-- A document is read, if at all, as its copy. -/
theorem Document.read_toJson {d s : Document} (sound : ∀ entry ∈ d.leaves, entry.2.Sound)
    (ok : Document.read d.toJson = some s)
    : s = d.copy .stored := by
  simp only [leaves, outerLeaves, List.forall_mem_append, List.forall_mem_cons, List.map_append,
    List.map_cons, List.forall_mem_map, Resources.leaves] at sound
  obtain ⟨library, parameters, secured, keyed, resources⟩ := sound
  rw [Document.read, toJson] at ok
  obtain ⟨f, found, held⟩ := exists_fields? (("title", .str d.title) :: text "description" d.description
    ++ text "version" d.version ++ text "baseUri" d.baseUri
    ++ map "baseUriParameters" (propertyMembers d.baseUriParameters)
    ++ texts "protocols" d.protocols ++ texts "mediaType" d.mediaType
    ++ list "documentation" (d.documentation.map DocumentationItem.toJson)
    ++ optional "securedBy" d.securedBy ++ d.library.members
    ++ map "resources" (resourceMembers d.resources))
  have own : ∀ key ∈ Library.fieldKeys, f.held key = under key d.library.members := by
    simp only [Library.fieldKeys, List.forall_mem_cons, List.not_mem_nil, false_imp_iff,
      implies_true, and_true, held, under_append, under_cons, under_optional, under_text, under_list,
      under_texts, under_map, String.reduceEq, if_false, List.append_nil, List.nil_append]
  have others := d.library.under_fieldKeys
  simp only [Document.fieldKeys, List.forall_mem_cons, List.not_mem_nil, false_imp_iff,
    implies_true, and_true] at others
  obtain ⟨n₁, n₂, n₃, n₄, n₅, n₆, n₇, n₈, n₉, n₁₀⟩ := others
  have title : f.text? "title" = some d.title := by
    rw [text?, get?_eq, held]
    simp [n₁, readText]
  have description := text?_eq (f := f) (s := d.description)
    ((held "description").trans (by simp [n₂]))
  have version := text?_eq (f := f) (s := d.version) ((held "version").trans (by simp [n₃]))
  have baseUri := text?_eq (f := f) (s := d.baseUri) ((held "baseUri").trans (by simp [n₄]))
  have parameters := properties?_eq (f := f)
    ((held "baseUriParameters").trans (by simp [n₅])) parameters
  have protocols := texts?_eq (f := f) (l := d.protocols)
    ((held "protocols").trans (by simp [n₆]))
  have mediaType := texts?_eq (f := f) (l := d.mediaType)
    ((held "mediaType").trans (by simp [n₇]))
  have documentation := list?_eq (f := f) (g := id) (l := d.documentation)
    ((held "documentation").trans (by simp [n₈])) fun item _ => item.read_toJson
  have securedBy := fragment?_eq (f := f) ((held "securedBy").trans (by simp [n₉])) secured
  simp only [found, title, description, version, baseUri, parameters, protocols, mediaType,
    documentation, securedBy, List.map_id, Option.bind_eq_bind, Option.bind_some] at ok
  obtain ⟨library', readLibrary, ok⟩ := Option.bind_eq_some_iff.mp ok
  obtain ⟨below, readBelow, ok⟩ := Option.bind_eq_some_iff.mp ok
  cases ok
  rw [Library.read_members d.library library own library' readLibrary,
    map?_yields ((held "resources").trans (by simp [n₁₀, resourceMembers_eq])) keyed
      (read_resourceMembers d.resources resources) readBelow, copy, copyResources_eq]
  rfl

end Raml
