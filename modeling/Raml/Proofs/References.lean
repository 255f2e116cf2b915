import Raml.TypeNode

/-! What a type refers to by name, and what a type is like before it inherits anything.

A type refers to its base and to the bases of its properties' types, at every depth. Induction over
types goes down to the types of their properties.
-/

namespace Raml

namespace TypeNode

/-- The type of a property is smaller than the type that has it. -/
theorem sizeOf_property_lt {t : TypeNode} {key : String} {p : Property}
    (h : (key, p) ∈ t.properties)
    : sizeOf p.type < sizeOf t := by
  obtain ⟨declaration, ⟨properties, a, b, c, d, e⟩, scalar, string, array, file, baseName, isArray,
    kind, resolved⟩ := t
  have inside : sizeOf (key, p) < sizeOf properties := List.sizeOf_lt_of_mem h
  obtain ⟨type, required, name⟩ := p
  simp only [Prod.mk.sizeOf_spec, Property.mk.sizeOf_spec, TypeNode.mk.sizeOf_spec,
    ObjectFacets.mk.sizeOf_spec] at *
  omega

/-- A statement holds of every type if it goes from the types of properties to the type itself. -/
theorem induct {P : TypeNode → Prop}
    (step : ∀ t : TypeNode, (∀ key p, (key, p) ∈ t.properties → P p.type) → P t) (t : TypeNode)
    : P t :=
  step t fun _ p _ => induct step p.type
termination_by sizeOf t
decreasing_by exact sizeOf_property_lt ‹_›

/-- The base that has to be looked up, where there is one. What is resolved looks up nothing. -/
def base? (t : TypeNode) : Option String :=
  if t.resolved || !t.needsLookup then none else some t.baseName

end TypeNode

mutual

/-- The names that a type refers to, in the order in which they are looked up: that of its base,
then those of the types of its properties, at every depth. -/
def TypeNode.references : TypeNode → List String
  | t@⟨_, ⟨properties, _, _, _, _, _⟩, _, _, _, _, _, _, _, _⟩ =>
      if t.resolved then [] else t.base?.toList ++ propertyReferences properties

def Property.references : Property → List String
  | ⟨type, _, _⟩ => type.references

def propertyReferences : List (String × Property) → List String
  | [] => []
  | (_, p) :: properties => p.references ++ propertyReferences properties

end

mutual

/-- Nothing has been inherited so far, at any depth, and base name, array mark and kind are what
follows from the name. -/
def TypeNode.Fresh : TypeNode → Prop
  | t@⟨_, ⟨properties, _, _, _, _, _⟩, _, _, _, _, _, _, _, _⟩ =>
      t.resolved = false ∧ t.deriveFromName = t ∧ FreshProperties properties

def Property.Fresh : Property → Prop
  | ⟨type, _, _⟩ => type.Fresh

def FreshProperties : List (String × Property) → Prop
  | [] => True
  | (_, p) :: properties => p.Fresh ∧ FreshProperties properties

end

theorem Property.references_eq (p : Property) : p.references = p.type.references := by
  cases p
  rfl

theorem Property.fresh_iff {p : Property} : p.Fresh ↔ p.type.Fresh := by
  cases p
  rfl

theorem propertyReferences_eq (properties : Properties)
    : propertyReferences properties = properties.flatMap fun entry => entry.2.type.references := by
  induction properties with
  | nil => rfl
  | cons entry properties ih => simp [propertyReferences, Property.references_eq, ih]

theorem freshProperties_iff {properties : Properties}
    : FreshProperties properties ↔ ∀ key p, (key, p) ∈ properties → p.type.Fresh := by
  induction properties with
  | nil => simp [FreshProperties]
  | cons entry properties ih =>
      obtain ⟨key, p⟩ := entry
      simp only [FreshProperties, Property.fresh_iff, ih, List.mem_cons, Prod.mk.injEq]
      constructor
      · rintro ⟨head, tail⟩ k q (⟨-, rfl⟩ | later)
        · exact head
        · exact tail k q later
      · exact fun all => ⟨all key p (Or.inl ⟨rfl, rfl⟩), fun k q later => all k q (Or.inr later)⟩

namespace TypeNode

/-- What is resolved refers to nothing. All else refers to its base first. -/
theorem references_def (t : TypeNode)
    : t.references
      = if t.resolved then [] else t.base?.toList ++ propertyReferences t.properties := by
  obtain ⟨_, ⟨_, _, _, _, _, _⟩, _, _, _, _, _, _, _, _⟩ := t
  rfl

theorem references_eq {t : TypeNode} (h : t.resolved = false)
    : t.references = t.base?.toList ++ propertyReferences t.properties := by
  simp [references_def, h]

/-- What is resolved looks up nothing. -/
theorem base?_of_resolved {t : TypeNode} (h : t.resolved = true) : t.base? = none := by
  simp [base?, h]

theorem unresolved_of_base? {t : TypeNode} {name : String} (h : t.base? = some name)
    : t.resolved = false := by
  cases resolved : t.resolved with
  | false => rfl
  | true =>
      rw [base?_of_resolved resolved] at h
      cases h

theorem mem_references_of_base? {t : TypeNode} {name : String} (h : t.base? = some name)
    : name ∈ t.references := by
  simp [references_eq (unresolved_of_base? h), h]

/-- A type refers to its base, and to what the types of its properties refer to. -/
theorem mem_references {t : TypeNode} {name : String} (h : t.resolved = false)
    : name ∈ t.references
      ↔ t.base? = some name ∨ ∃ key p, (key, p) ∈ t.properties ∧ name ∈ p.type.references := by
  rw [references_eq h, propertyReferences_eq]
  simp

/-- A type is fresh if it is so by itself and at every depth. -/
theorem fresh_iff {t : TypeNode}
    : t.Fresh ↔ t.resolved = false ∧ t.deriveFromName = t
        ∧ ∀ key p, (key, p) ∈ t.properties → p.type.Fresh := by
  rw [← freshProperties_iff]
  obtain ⟨_, ⟨_, _, _, _, _, _⟩, _, _, _, _, _, _, _, _⟩ := t
  rfl

theorem Fresh.unresolved {t : TypeNode} (h : t.Fresh) : t.resolved = false := (fresh_iff.mp h).1

/-- The types of properties are fresh as well. -/
theorem Fresh.property {t : TypeNode} (h : t.Fresh) {key : String} {p : Property}
    (member : (key, p) ∈ t.properties)
    : p.type.Fresh :=
  (fresh_iff.mp h).2.2 key p member

/-- The kind of a fresh type follows from the name of its base. -/
theorem Fresh.kind_eq {t : TypeNode} (h : t.Fresh) : t.kind = .ofName t.baseName := by
  have derived := (fresh_iff.mp h).2.1
  rw [← derived]
  rfl

theorem Fresh.baseName_eq {t : TypeNode} (h : t.Fresh)
    : t.baseName = (TypeName.splitArray t.typeName).1 := by
  have derived := (fresh_iff.mp h).2.1
  rw [← derived]
  rfl

theorem Fresh.isArray_eq {t : TypeNode} (h : t.Fresh)
    : t.isArray = (TypeName.splitArray t.typeName).2 := by
  have derived := (fresh_iff.mp h).2.1
  rw [← derived]
  rfl

/-- A base that is looked up is the one that is named. -/
theorem needsLookup_of_base? {t : TypeNode} {name : String} (h : t.base? = some name)
    : t.needsLookup = true ∧ t.baseName = name := by
  unfold base? at h
  split at h
  · cases h
  · rename_i needed
    simp only [Bool.or_eq_true, not_or, Bool.not_eq_true] at needed
    exact ⟨by simpa using needed.2, Option.some.inj h⟩

/-- Names in place are looked up nowhere. -/
theorem not_isInline_of_base? {t : TypeNode} {name : String} (h : t.base? = some name)
    : t.isInline = false := by
  simpa using (Bool.and_eq_true_iff.mp (needsLookup_of_base? h).1).1

/-- A type whose base has to be looked up has the kind of its base's name until that is done. -/
theorem Fresh.kind_of_base? {t : TypeNode} (h : t.Fresh) {name : String}
    (base : t.base? = some name)
    : t.kind = .custom name := by
  obtain ⟨lookup, rfl⟩ := needsLookup_of_base? base
  have custom : (Kind.ofName t.baseName).isBuiltIn = false := by
    simpa [needsLookup] using (Bool.and_eq_true_iff.mp lookup).2
  rw [h.kind_eq]
  unfold Kind.ofName at custom ⊢
  split <;> simp_all [Kind.isBuiltIn]

/-- A type that is a name alone is fresh. -/
theorem fresh_ofName (name : String) : (ofName name).Fresh :=
  fresh_iff.mpr ⟨rfl, rfl, fun _ _ member => nomatch member⟩

/-- A fresh type may have any fresh properties. -/
theorem Fresh.withProperties {t : TypeNode} (h : t.Fresh) {properties : Properties}
    (each : ∀ key p, (key, p) ∈ properties → p.type.Fresh)
    : (t.withProperties properties).Fresh := by
  refine fresh_iff.mpr ⟨h.unresolved, ?_, each⟩
  have derived := (fresh_iff.mp h).2.1
  have same : (t.withProperties properties).deriveFromName
      = t.deriveFromName.withProperties properties := rfl
  rw [same, derived]

/-- A type with one property, both with a name and nothing else. -/
theorem fresh_withProperty (name key other : String)
    : ((ofName name).withProperties [(key, .ofName key other)]).Fresh := by
  refine (fresh_ofName name).withProperties fun k p member => ?_
  cases List.mem_singleton.mp member
  exact fresh_ofName other

end TypeNode

end Raml
