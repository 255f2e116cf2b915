import Raml.ExampleValue
import Raml.Pass.Normalize
import Raml.Proofs.Documents.Hooks
import Raml.Proofs.Tables

/-! What passes keep of the declaration of a type.

A declaration is brought into another form and filled where it leaves something unset. What it sets
is kept under its name in the new form, in the type and in those of its properties. One pass after
another keeps what both of them do.
-/

namespace Raml

-----------------------------------------------------------------------------------------
-- Examples
-----------------------------------------------------------------------------------------

namespace Example

/-- Examples that agree but for what is applied to them. -/
def Same (e e' : Example) : Prop := ∃ annotations, e' = { e with annotations }

/-- The example once its file has been read, if there is one to be read. -/
structure ReadFrom (load : Include) (kind : Kind) (e e' : Example) : Prop where
  displayName : e'.displayName = e.displayName
  description : e'.description = e.description
  strict : e'.strict = e.strict
  included : e'.included = e.included
  value : (∃ path v, e.pendingPath? = some path ∧ load path kind = .ok v
      ∧ e'.value = some v ∧ e'.loaded = true)
    ∨ e.pendingPath? = none ∧ e'.value = e.value ∧ e'.loaded = e.loaded

theorem Same.refl (e : Example) : e.Same e := ⟨e.annotations, by cases e; rfl⟩

theorem Same.trans {e e' e'' : Example} (h : e.Same e') (h' : e'.Same e'') : e.Same e'' := by
  obtain ⟨_, rfl⟩ := h
  obtain ⟨annotations, rfl⟩ := h'
  exact ⟨annotations, rfl⟩

/-- An example is read from its file, or it is left as it is. -/
theorem readFrom_of_materialize {load : Include} {kind : Kind} {e e' : Example}
    (h : e.materialize load kind = .ok e')
    : e.ReadFrom load kind e' := by
  unfold materialize at h
  split at h
  · rename_i path pending
    obtain ⟨v, read, h⟩ := bind_eq_ok_iff.mp h
    cases h
    exact ⟨rfl, rfl, rfl, rfl, .inl ⟨path, v, pending, read, rfl, rfl⟩⟩
  · rename_i settled
    cases h
    exact ⟨rfl, rfl, rfl, rfl, .inr ⟨settled, rfl, rfl⟩⟩

variable {load : Include} {kind : Kind} {e e' e'' : Example}

/-- Annotations make no difference to what is read. -/
theorem ReadFrom.of_same (h : e.Same e') (h' : e'.ReadFrom load kind e'')
    : e.ReadFrom load kind e'' := by
  obtain ⟨_, rfl⟩ := h
  exact ⟨h'.displayName, h'.description, h'.strict, h'.included, h'.value⟩

/-- Nor do those that are applied afterwards. -/
theorem ReadFrom.same (h : e.ReadFrom load kind e') (h' : e'.Same e'')
    : e.ReadFrom load kind e'' := by
  obtain ⟨_, rfl⟩ := h'
  exact ⟨h.displayName, h.description, h.strict, h.included, h.value⟩

/-- Nothing is left to be read. -/
theorem ReadFrom.settled (h : e.ReadFrom load kind e') : e'.pendingPath? = none := by
  rcases h.value with ⟨_, _, -, -, -, loaded⟩ | ⟨settled, value, loaded⟩
  · simp [pendingPath?, loaded]
  · rw [← settled, pendingPath?, pendingPath?, value, loaded, h.included]

/-- Examples are read once. -/
theorem ReadFrom.trans (h : e.ReadFrom load kind e') (h' : e'.ReadFrom load kind e'')
    : e.ReadFrom load kind e'' := by
  rcases h'.value with ⟨_, _, pending, -⟩ | ⟨-, value, loaded⟩
  · rw [h.settled] at pending
    cases pending
  · exact {
      displayName := h'.displayName.trans h.displayName
      description := h'.description.trans h.description
      strict := h'.strict.trans h.strict
      included := h'.included.trans h.included
      value := by
        rw [value, loaded]
        exact h.value }

end Example

-----------------------------------------------------------------------------------------
-- What is unset
-----------------------------------------------------------------------------------------

/-- Something may come to be filled if it is unset, and stays as it is otherwise. -/
def Fills {α : Type} (unset : α → Bool) (a a' : α) : Prop := unset a = false → a' = a

namespace Fills

variable {α : Type} {unset : α → Bool} {a a' a'' : α}

theorem refl (unset : α → Bool) (a : α) : Fills unset a a := fun _ => rfl

/-- Something that is filled once is not filled again. -/
theorem trans (h : Fills unset a a') (h' : Fills unset a' a'') : Fills unset a a'' := by
  intro set
  have same := h set
  rw [h' (same ▸ set), same]

/-- This is how a type inherits a field. -/
theorem ite (a b : α) : Fills unset a (if unset a then b else a) := by
  intro set
  simp [set]

/-- This is how it inherits a field that may be missing. -/
theorem or (o o' : Option α) : Fills Option.isNone o (o.or o') := by
  intro set
  cases o with
  | none => cases set
  | some a => rfl

end Fills

-----------------------------------------------------------------------------------------
-- Declarations
-----------------------------------------------------------------------------------------

/-- What becomes of the things that a declaration sets. -/
structure Change where
  property : String → String := id
  annotation : String → String := id
  value : Option Value → Option Value := id
  ofExample : Kind → Example → Example → Prop := fun _ => Example.Same

namespace TypeNode

variable {c c₁ c₂ : Change} {t t' t'' : TypeNode}

/-- What a type sets apart from its properties, it keeps. -/
structure KeepsOwn (c : Change) (t t' : TypeNode) : Prop where
  typeName : t'.typeName = t.typeName
  default? : Fills Option.isNone t.declaration.default? t'.declaration.default?
  schema : Fills Option.isNone t.declaration.schema t'.declaration.schema
  displayName : Fills String.isEmpty t.declaration.displayName t'.declaration.displayName
  description : Fills String.isEmpty t.declaration.description t'.declaration.description
  facets : Fills Option.isNone t.declaration.facets t'.declaration.facets
  xml : Fills Option.isNone t.declaration.xml t'.declaration.xml
  scalar : Fills ScalarFacets.isEmpty t.scalar t'.scalar
  string : Fills StringFacets.isEmpty t.string t'.string
  array : Fills ArrayFacets.isEmpty t.array t'.array
  file : Fills FileFacets.isEmpty t.file t'.file
  object (set : t.object.isEmpty = false)
    : t'.object = { t.object with properties := t'.properties }
  /-- All examples are kept, in order, and no others are added to them. -/
  examples (set : t.hasExamples = true)
    : Option.Rel (c.ofExample t'.kind) t.declaration.example? t'.declaration.example?
      ∧ Keyed.Related (c.ofExample t'.kind) t.declaration.examples t'.declaration.examples
  annotations {key : String} {a : Annotation}
      (set : Keyed.get? t.declaration.annotations key = some a)
    : ∃ a', Keyed.get? t'.declaration.annotations (c.annotation key) = some a'
        ∧ a'.value = c.value a.value

mutual

/-- What a type sets it keeps, and so do those of its properties, at every depth. -/
inductive Keeps (c : Change) : TypeNode → TypeNode → Prop where
  | intro {t t' : TypeNode} (own : t.KeepsOwn c t')
      (properties : t.object.isEmpty = false → PropertiesKeep c t.properties t'.properties)
      : Keeps c t t'

/-- Properties that are kept in order, each under its name. -/
inductive PropertiesKeep (c : Change) : Properties → Properties → Prop where
  | nil : PropertiesKeep c [] []
  | cons {key : String} {p p' : Property} {ps ps' : Properties} (first : Keeps c p.type p'.type)
      (rest : PropertiesKeep c ps ps')
      : PropertiesKeep c ((key, p) :: ps) ((c.property key, p') :: ps')

end

/-- A property and the one that it becomes. -/
abbrev EntryKeeps (c : Change) (entry entry' : String × Property) : Prop :=
  entry'.1 = c.property entry.1 ∧ entry.2.type.Keeps c entry'.2.type

/-- Properties are kept one by one. -/
theorem propertiesKeep_iff {ps ps' : Properties}
    : PropertiesKeep c ps ps' ↔ List.Forall₂ (EntryKeeps c) ps ps' := by
  induction ps generalizing ps' with
  | nil =>
      rw [List.forall₂_nil_left_iff]
      constructor
      · intro h
        cases h
        rfl
      · rintro rfl
        exact .nil
  | cons entry ps ih =>
      constructor
      · intro h
        cases h with
        | cons first rest => exact .cons ⟨rfl, first⟩ (ih.mp rest)
      · intro h
        cases h with
        | @cons _ entry' _ ps' first rest =>
            obtain ⟨key, p⟩ := entry
            obtain ⟨_, p'⟩ := entry'
            obtain ⟨rfl, first⟩ := first
            exact .cons first (ih.mpr rest)

/-- A type that sets something for objects keeps its properties; one that does not may inherit
others. -/
theorem keeps_iff
    : t.Keeps c t'
      ↔ t.KeepsOwn c t'
        ∧ (t.object.isEmpty = false
          → List.Forall₂ (EntryKeeps c) t.properties t'.properties) := by
  constructor
  · intro h
    cases h with
    | intro own properties => exact ⟨own, fun set => propertiesKeep_iff.mp (properties set)⟩
  · intro h
    exact .intro h.1 fun set => propertiesKeep_iff.mpr (h.2 set)

end TypeNode

/-- Where two changes come to when one is made after the other. -/
structure Change.Composes (c₁ c₂ c : Change) : Prop where
  property (key : String) : c.property key = c₂.property (c₁.property key)
  annotation (key : String) : c.annotation key = c₂.annotation (c₁.annotation key)
  value (v : Option Value) : c.value v = c₂.value (c₁.value v)
  ofExample {kind kind' : Kind} {e e' e'' : Example} (h : c₁.ofExample kind e e')
    (h' : c₂.ofExample kind' e' e'') : c.ofExample kind' e e''

namespace TypeNode

variable {c c₁ c₂ : Change} {t t' t'' : TypeNode}

/-- Examples stay examples, whatever is done to each. -/
theorem hasExamples_of_related {E : Example → Example → Prop} (h : t.hasExamples = true)
    (single : Option.Rel E t.declaration.example? t'.declaration.example?)
    (named : Keyed.Related E t.declaration.examples t'.declaration.examples)
    : t'.hasExamples = true := by
  rw [hasExamples] at h ⊢
  rwa [isSome_of_rel single, isEmpty_of_forall₂ named]

/-- What two changes keep, one after the other, is what they come to together. -/
theorem KeepsOwn.trans (composes : c₁.Composes c₂ c) (h : t.KeepsOwn c₁ t')
    (h' : t'.KeepsOwn c₂ t'') (filled : t.object.isEmpty = false → t'.object.isEmpty = false)
    : t.KeepsOwn c t'' where
  typeName := h'.typeName.trans h.typeName
  default? := h.default?.trans h'.default?
  schema := h.schema.trans h'.schema
  displayName := h.displayName.trans h'.displayName
  description := h.description.trans h'.description
  facets := h.facets.trans h'.facets
  xml := h.xml.trans h'.xml
  scalar := h.scalar.trans h'.scalar
  string := h.string.trans h'.string
  array := h.array.trans h'.array
  file := h.file.trans h'.file
  object set := by
    rw [h'.object (filled set), h.object set]
  examples set := by
    obtain ⟨single, named⟩ := h.examples set
    obtain ⟨single', named'⟩ := h'.examples (hasExamples_of_related set single named)
    refine ⟨rel_trans single single' fun _ _ _ => composes.ofExample, ?_⟩
    refine (named.trans named').mono fun e e'' related => ?_
    obtain ⟨e', first, second⟩ := related
    exact composes.ofExample first second
  annotations set := by
    obtain ⟨a', found', value'⟩ := h.annotations set
    obtain ⟨a'', found'', value''⟩ := h'.annotations found'
    exact ⟨a'', composes.annotation _ ▸ found'', by rw [value'', value', composes.value]⟩

/-- Objects that set something go on to do so. -/
theorem Keeps.filled (h : t.Keeps c t') (set : t.object.isEmpty = false)
    : t'.object.isEmpty = false := by
  obtain ⟨own, properties⟩ := keeps_iff.mp h
  have same : t'.properties.isEmpty = t.properties.isEmpty := isEmpty_of_forall₂ (properties set)
  rw [own.object set, ObjectFacets.isEmpty]
  show (t'.properties.isEmpty && _ && _ && _ && _ && _) = false
  rw [same]
  exact set

/-- By induction on types: what one pass after the other keeps. -/
theorem Keeps.trans (composes : c₁.Composes c₂ c) (h : t.Keeps c₁ t') (h' : t'.Keeps c₂ t'')
    : t.Keeps c t'' := by
  induction t using TypeNode.induct generalizing t' t'' with
  | step t ih =>
      have filled := h.filled
      obtain ⟨own, properties⟩ := keeps_iff.mp h
      obtain ⟨own', properties'⟩ := keeps_iff.mp h'
      refine keeps_iff.mpr ⟨own.trans composes own' filled, fun set => ?_⟩
      refine forall₂_trans_of_mem (properties set) (properties' (filled set)) ?_
      rintro entry member entry' entry'' ⟨key, inside⟩ ⟨key', inside'⟩
      exact ⟨by rw [key', key, composes.property], ih entry.1 entry.2 member inside inside'⟩

theorem object_self (t : TypeNode) : { t.object with properties := t.properties } = t.object := by
  obtain ⟨_, ⟨_, _, _, _, _, _⟩, _, _, _, _, _, _, _, _⟩ := t
  rfl

/-- A type that stays as it is keeps all that it sets. -/
theorem KeepsOwn.refl (t : TypeNode) : t.KeepsOwn {} t where
  typeName := rfl
  default? := .refl _ _
  schema := .refl _ _
  displayName := .refl _ _
  description := .refl _ _
  facets := .refl _ _
  xml := .refl _ _
  scalar := .refl _ _
  string := .refl _ _
  array := .refl _ _
  file := .refl _ _
  object _ := t.object_self.symm
  examples _ := ⟨rel_refl .refl _, List.forall₂_same.mpr fun entry _ => ⟨rfl, .refl entry.2⟩⟩
  annotations set := ⟨_, set, rfl⟩

theorem Keeps.refl (t : TypeNode) : t.Keeps {} t := by
  induction t using TypeNode.induct with
  | step t ih =>
      refine keeps_iff.mpr ⟨.refl t, fun _ => List.forall₂_same.mpr fun entry member => ?_⟩
      exact ⟨rfl, ih entry.1 entry.2 member⟩

end TypeNode

end Raml
