import Raml.Cache
import Raml.Proofs.Cache.Reading
import Raml.Proofs.Documents.Hooks
import Raml.Proofs.Guarantee
import Raml.Proofs.Text.Base64

/-! Restoring what was stored: from the copy that was read comes another copy of the same document,
in which names are derived again and annotations are linked again.
-/

namespace Raml

/-- What becomes of the value of an example that was read. The text of a file stands for bytes. -/
def Value.restored (kind : Kind) (included : Bool) (v : Value) : Value :=
  if included ∧ kind = .file then v.decodeBinary?.getD v else v

/-- How a document is copied that is written, read and restored but for its annotations. -/
def Copying.unlinked : Copying where
  names := TypeName.splitArray
  resolved := true
  lengths kind s f :=
    if kind = .file then ({ s with minLength := 0, maxLength := unbounded }, f)
    else (s, { fileTypes := f.fileTypes })
  property := id
  applied _ a := a.stored
  value kind included v := v.reread?.map (Value.restored kind included)
  loaded := id

/-- The annotation under a key that is restored where one was written. It is linked to what its key
denotes in a library. -/
def Annotation.restored (library : Library) (key : String) (a : Annotation) : Annotation where
  value := some ((a.value.bind Value.reread?).getD .null)
  name := key
  declared := library.getAnnotationType? key

/-- How what stands in a library is copied that is written, read and restored. -/
def Copying.restored (library : Library) : Copying :=
  { Copying.unlinked with applied := Annotation.restored library }

/-- How a document is copied that is written, read and restored. Names denote what they denote in
the copies that were read. -/
def CopyingIn.restored : CopyingIn := fun l => .restored (l.copy .stored)

-----------------------------------------------------------------------------------------
-- Types
-----------------------------------------------------------------------------------------

/-- Annotations that were read are linked to what their keys denote. -/
theorem Annotations.restore_copy (library : Library) (annotations : Annotations)
    : (Annotations.copy .stored annotations).restore library
      = Annotations.copy (.restored library) annotations := by
  simp [restore, withValues, link, copy, Copying.restored, Copying.stored, Annotation.stored,
    Annotation.ofValue, Annotation.link, Annotation.restored, Function.comp_def]

/-- A value is left as it was read unless it is that of a file's example and comes from a file. -/
theorem Value.restored_of_not {kind : Kind} {included : Bool} (h : ¬(included ∧ kind = .file))
    : Value.restored kind included = id := by
  funext v
  simp [restored, h]

/-- What cannot be decoded is kept as text. -/
theorem Value.or_decodeBinary? (value : Option Value)
    : (value.bind decodeBinary?).or value = value.map (restored .file true) := by
  cases value with
  | none => rfl
  | some v => cases bytes : v.decodeBinary? <;> simp [restored, bytes]

/-- So restoring an example is restoring its value, if a file is its origin. -/
theorem Example.restore_copy (kind : Kind) (e : Example)
    : (e.copy .stored kind).restore kind = e.copy .unlinked kind := by
  obtain ⟨displayName, description, annotations, value, strict, included, loaded⟩ := e
  have reread (same : Value.restored kind included = id)
      : (value.bind fun v => v.reread?.map (Value.restored kind included))
        = value.bind Value.reread? := by
    simp only [same, Option.map_id_fun, id]
  cases included with
  | false =>
      have same := reread (Value.restored_of_not (by simp))
      simp [restore, copy, Copying.stored, Copying.unlinked, Annotations.copy, same]
  | true =>
      by_cases file : kind = .file
      · have later : (value.bind Value.reread?).map (Value.restored .file true)
            = value.bind fun v => v.reread?.map (Value.restored .file true) :=
          Option.map_bind
        simp [restore, copy, Copying.stored, Copying.unlinked, Annotations.copy, file,
          Value.or_decodeBinary?, later]
      · have same := reread (Value.restored_of_not (by simp [file]))
        simp [restore, copy, Copying.stored, Copying.unlinked, Annotations.copy, file, same]

/-- A declaration is restored example by example. -/
theorem Declaration.restore_copy (kind : Kind) (d : Declaration)
    : { d.copy .stored kind with
          example? := (d.copy .stored kind).example?.map (Example.restore kind)
          examples := (d.copy .stored kind).examples.map fun (name, e) => (name, e.restore kind) }
      = d.copy .unlinked kind := by
  simp only [copy, Keyed.mapValues, Option.map_map, Function.comp_def, Example.restore_copy,
    List.map_map, mk.injEq, and_self, and_true, true_and]
  rfl

/-- The one pair of bounds is that of strings or of files, as it was. -/
theorem TypeNode.claimLength_copy (t : TypeNode)
    : ({ (t.copyOwn .stored).deriveFromName with kind := t.kind, resolved := true }
        : TypeNode).claimLength
      = { t.copyOwn .unlinked with declaration := t.declaration.copy .stored t.kind } := by
  by_cases file : t.kind = .file
  · have bounds : Copying.stored.lengths t.kind t.string t.file
        = ({ t.string with minLength := t.file.minLength, maxLength := t.file.maxLength },
          { fileTypes := t.file.fileTypes }) := by
      rw [file]
      rfl
    have lengths : Copying.unlinked.lengths t.kind t.string t.file
        = ({ t.string with minLength := 0, maxLength := unbounded }, t.file) := if_pos file
    refine (if_pos ⟨file, rfl, rfl⟩).trans ?_
    simp only [copyOwn, deriveFromName, bounds, lengths]
    rfl
  · have bounds : Copying.stored.lengths t.kind t.string t.file
        = (t.string, { fileTypes := t.file.fileTypes }) := by
      simp [Copying.stored, Kind.bounds]
    have lengths : Copying.unlinked.lengths t.kind t.string t.file
        = (t.string, { fileTypes := t.file.fileTypes }) := if_neg file
    refine (if_neg fun h => file h.1).trans ?_
    simp only [copyOwn, deriveFromName, bounds, lengths]
    rfl

/-- Apart from properties and annotations, a type is restored by deriving its names again and by
putting bounds back where they belong. -/
theorem TypeNode.restore_copyOwn (t : TypeNode) : (t.copyOwn .stored).restore = t.copyOwn .unlinked := by
  refine (congrArg (fun u : TypeNode => { u with
      declaration := { u.declaration with
        example? := u.declaration.example?.map (Example.restore u.kind)
        examples := u.declaration.examples.map fun (name, e) => (name, Example.restore u.kind e) } })
    t.claimLength_copy).trans ?_
  exact congrArg (fun declaration => { t.copyOwn .unlinked with declaration })
    (t.declaration.restore_copy t.kind)

/-- What restoring does to types and what belongs to them. -/
def restoreHooks (library : Library) : TypeHooks where
  node t := .ok t.restore
  properties ps := .ok ps.nameByKeys
  annotations _ a := .ok (a.restore library)

variable (library : Library)

/-- Examples that are all changed without an error. -/
theorem TypeNode.mapExamplesM_ok {f : Example → Except Error Example} {g : Example → Example}
    (each : ∀ e, f e = .ok (g e)) (t : TypeNode)
    : t.mapExamplesM f
      = .ok { t with
          declaration := { t.declaration with
            example? := t.declaration.example?.map g
            examples := Keyed.mapValues g t.declaration.examples } } := by
  have single : t.declaration.example?.mapM f = .ok (t.declaration.example?.map g) := by
    cases t.declaration.example? with
    | none => rfl
    | some e => exact congrArg (Except.map some) (each e)
  have named : (t.declaration.examples.mapM fun (k, e) => do return (k, ← f e))
      = .ok (Keyed.mapValues g t.declaration.examples) :=
    mapM_eq_map fun entry _ => by simp only [each]; rfl
  rw [mapExamplesM, single, ok_bind, named]
  rfl

/-- With annotations, it is as it was stored but for its properties. -/
theorem TypeNode.apply_restore (targets : List Target) (t : TypeNode)
    : (restoreHooks library).apply targets (t.copyOwn .stored)
      = .ok (t.copyOwn (.restored library)) := by
  have again (annotations : Annotations)
      : Annotations.restore library (Annotations.copy .unlinked annotations)
        = Annotations.copy (.restored library) annotations :=
    annotations.restore_copy library
  have each (e : Example)
      : { e.copy .unlinked t.kind with
          annotations := Annotations.restore library (e.copy .unlinked t.kind).annotations }
        = e.copy (.restored library) t.kind := by
    simp only [Example.copy, again]
    rfl
  have ran := TypeNode.mapExamplesM_ok
    (f := fun e => do return { e with
      annotations := ← (restoreHooks library).annotations [.example] e.annotations })
    (g := fun e => { e with annotations := Annotations.restore library e.annotations })
    (fun _ => rfl)
  rw [TypeHooks.apply]
  simp only [restoreHooks, restore_copyOwn, ok_bind] at ran ⊢
  rw [ran]
  refine congrArg (fun declaration => Except.ok { t.copyOwn (.restored library) with declaration })
    (?_ : _ = t.declaration.copy (.restored library) t.kind)
  simp [copyOwn, Declaration.copy, Keyed.mapValues, again, each, Function.comp_def]

-----------------------------------------------------------------------------------------
-- Types and their properties
-----------------------------------------------------------------------------------------

/-- What a type itself is copied as does not depend on its properties. -/
theorem TypeNode.apply_restore_copy (targets : List Target) (t : TypeNode)
    : (restoreHooks library).apply targets (t.copy .stored)
      = .ok ((t.copyOwn (.restored library)).withProperties (copyProperties .stored t.properties)) := by
  have same (w : Copying) : (t.withProperties (copyProperties .stored t.properties)).copyOwn w
      = (t.copyOwn w).withProperties (copyProperties .stored t.properties) := rfl
  have ran := apply_restore library targets (t.withProperties (copyProperties .stored t.properties))
  rwa [same, same, ← copy_eq] at ran

/-- Names of properties are derived from their keys. -/
theorem Properties.restore_copy (properties : Properties)
    : (nameByKeys (copyProperties .stored properties)).withTypes
        (properties.map fun entry => entry.2.type.copy (.restored library))
      = copyProperties (.restored library) properties := by
  induction properties with
  | nil => rfl
  | cons entry properties ih =>
      obtain ⟨key, type, required, name⟩ := entry
      rw [copyProperties, copyProperties, ← ih]
      rfl

/-- Once the types of its properties are restored, a type is. -/
theorem TypeNode.visit_restore_of (targets : List Target) (t : TypeNode)
    (inside : visitTypes (restoreHooks library) (copyProperties .stored t.properties)
      = .ok (t.properties.map fun entry => entry.2.type.copy (.restored library)))
    : (t.copy .stored).visit (restoreHooks library) targets
      = .ok (t.copy (.restored library)) := by
  have below : (t.copy .stored).properties = copyProperties .stored t.properties := by
    rw [copy_eq]
    rfl
  rw [visit_eq, apply_restore_copy, ok_bind, below, inside]
  refine congrArg Except.ok ?_
  rw [copy_eq, ← Properties.restore_copy]
  rfl

mutual

/-- By induction on types and their properties. -/
theorem TypeNode.visit_restore (targets : List Target)
    : ∀ t : TypeNode, (t.copy .stored).visit (restoreHooks library) targets
        = .ok (t.copy (.restored library))
  | ⟨_, ⟨properties, _, _, _, _, _⟩, _, _, _, _, _, _, _, _⟩ =>
      TypeNode.visit_restore_of library targets _ (visitTypes_restore properties)

theorem Property.visitType_restore (key : String)
    : ∀ p : Property, (p.copy .stored key).visitType (restoreHooks library)
        = .ok (p.type.copy (.restored library))
  | ⟨type, _, _⟩ => TypeNode.visit_restore [.typeDeclaration] type

theorem visitTypes_restore
    : ∀ properties : List (String × Property),
      visitTypes (restoreHooks library) (copyProperties .stored properties)
        = .ok (properties.map fun entry => entry.2.type.copy (.restored library))
  | [] => rfl
  | (key, p) :: properties => by
      have first := Property.visitType_restore key p
      have rest := visitTypes_restore properties
      simp only [copyProperties, visitTypes, first, ok_bind, rest]
      rfl

end

theorem Properties.visit_restore (properties : Properties)
    : Properties.visit (restoreHooks library) (copyProperties .stored properties)
      = .ok (copyProperties (.restored library) properties) := by
  rw [visit, visitTypes_restore]
  exact congrArg Except.ok (restore_copy library properties)

-----------------------------------------------------------------------------------------
-- Methods and resources
-----------------------------------------------------------------------------------------

namespace Pass

variable (scope : Scope)

/-- The pass restores types as its hooks do. The same goes for properties and annotations, and then
for all that has such parts. -/
theorem restore_type (targets : List Target) (t : TypeNode)
    : restore.type scope targets (t.copy .stored) = .ok (t.copy (.restored scope.library)) :=
  t.visit_restore scope.library targets

theorem restore_properties (properties : Properties)
    : restore.properties scope (copyProperties .stored properties)
      = .ok (copyProperties (.restored scope.library) properties) :=
  Properties.visit_restore scope.library properties

theorem restore_annotations (targets : List Target) (annotations : Annotations)
    : restore.annotations scope targets (Annotations.copy .stored annotations)
      = .ok (Annotations.copy (.restored scope.library) annotations) :=
  congrArg Except.ok (annotations.restore_copy scope.library)

/-- A table whose values are restored one by one. -/
theorem onValues_restore {α : Type} {f : α → Except Error α} {copy copy' : α → α}
    (each : ∀ a, f (copy a) = .ok (copy' a)) (table : Keyed α)
    : onValues f (Keyed.mapValues copy table) = .ok (Keyed.mapValues copy' table) := by
  rw [onValues, Keyed.mapValues, List.mapM_map]
  exact mapM_eq_map fun entry _ => by simp only [Function.comp_apply, each]; rfl

theorem onBodies_restore (site : Target) (bodies : Bodies)
    : restore.onBodies scope site (Keyed.mapValues (TypeNode.copy .stored) bodies)
      = .ok (Keyed.mapValues (TypeNode.copy (.restored scope.library)) bodies) :=
  onValues_restore (restore_type scope _) bodies

theorem onResponse_restore (r : Response)
    : restore.onResponse scope (r.copy .stored) = .ok (r.copy (.restored scope.library)) := by
  simp only [onResponse, Response.copy, restore_annotations, restore_properties, onBodies_restore,
    ok_bind]
  rfl

theorem onResponses_restore (responses : Responses)
    : restore.onResponses scope (Responses.copy .stored responses)
      = .ok (Responses.copy (.restored scope.library) responses) := by
  rw [onResponses, Responses.copy, List.mapM_map]
  exact mapM_eq_map fun entry _ => by simp only [Function.comp_apply, onResponse_restore]; rfl

mutual

/-- By induction on methods and the traits that they use. -/
theorem onMethod_restore (target : Target)
    : ∀ m : Method, restore.onMethod scope target (m.copy .stored)
        = .ok (m.copy (.restored scope.library))
  | ⟨_, _, _, _, _, _, _, _, _, is, _, _⟩ => by
      have uses := onTraits_restore is
      simp only [onMethod, Method.copy, restore_annotations, restore_properties, onBodies_restore,
        onResponses_restore, uses, ok_bind]
      rfl

theorem onTrait_restore
    : ∀ t : Trait, restore.onTrait scope (t.copy .stored) = .ok (t.copy (.restored scope.library))
  | ⟨_, method, _, _, _, _, _⟩ => by
      have inner := onMethod_restore .trait method
      simp only [Trait.copy, onTrait, inner]
      rfl

theorem onTraits_restore
    : ∀ traits : List Trait, restore.onTraits scope (copyTraits .stored traits)
        = .ok (copyTraits (.restored scope.library) traits)
  | [] => rfl
  | t :: traits => by
      have first := onTrait_restore t
      have rest := onTraits_restore traits
      simp only [copyTraits, onTraits, first, rest, ok_bind]
      rfl

end

mutual

/-- By induction on resources and those below them. -/
theorem onResource_restore (key : String)
    : ∀ r : Resource, restore.onResource scope key (r.copy .stored)
        = .ok (r.copy (.restored scope.library))
  | ⟨_, _, _, methods, is, _, _, uriParameters, resources⟩ => by
      have own := onValues_restore (onMethod_restore scope .method) methods
      have parameters : restore.properties scope (restore.uriParameters key
          (copyProperties .stored uriParameters))
          = .ok (copyProperties (.restored scope.library) uriParameters) :=
        restore_properties scope uriParameters
      have below := onResources_restore resources
      simp only [Resource.copy, onResource, restore_annotations, parameters, onTraits_restore,
        own, below, ok_bind]
      rfl

theorem onResources_restore
    : ∀ resources : List (String × Resource),
      restore.onResources scope (copyResources .stored resources)
        = .ok (copyResources (.restored scope.library) resources)
  | [] => rfl
  | (key, r) :: resources => by
      have first := onResource_restore key r
      have rest := onResources_restore resources
      simp only [copyResources, onResources, first, rest, ok_bind]
      rfl

end

-----------------------------------------------------------------------------------------
-- Libraries and documents
-----------------------------------------------------------------------------------------

theorem onAnnotationTypes_restore (types : AnnotationTypes)
    : onValues (fun a => do
          return { a with type := ← restore.type scope [.annotationType] a.type })
        (restore.annotationTypes (Keyed.mapValues (AnnotationType.copy .stored) types))
      = .ok (Keyed.mapValues (AnnotationType.copy (.restored scope.library)) types) :=
  onValues_restore (fun a => by simp only [AnnotationType.copy, restore_type]; rfl) types

/-- A library is restored if those are that it uses. -/
theorem onLibrary_restore_of (target : Target) (l : Library) (same : scope.library = l.copy .stored)
    (inside : restore.onUses scope (copyUses .stored l.uses) = .ok (copyUses .restored l.uses))
    : restore.onLibrary scope target (l.copy .stored) = .ok (l.copy .restored) := by
  have traits := onValues_restore (onTrait_restore scope) l.traits
  have types := onValues_restore (restore_type scope [.typeDeclaration]) l.types
  rw [Library.copy_eq, Library.copy_eq]
  simp only [Library.copyOwn, onLibrary, CopyingIn.stored, CopyingIn.restored, types, traits,
    onAnnotationTypes_restore, restore_annotations, inside, ok_bind, same]
  rfl

mutual

/-- By induction on libraries. Names denote what they denote in the library as it was read. -/
theorem onLibrary_restore (target : Target)
    : ∀ (l : Library) (scope : Scope), scope.library = l.copy .stored
      → restore.onLibrary scope target (l.copy .stored) = .ok (l.copy .restored)
  | ⟨_, _, _, _, _, _, _, _, uses, _⟩, scope, same =>
      onLibrary_restore_of scope target _ same (onUses_restore uses scope)

theorem onUse_restore (name : String)
    : ∀ (use : Use) (scope : Scope), restore.onUse scope name (use.copy .stored)
        = .ok (use.copy .restored)
  | .external _, _ => rfl
  | .loaded library, scope => by
      have inner := onLibrary_restore .library library
        (scope.enter name (library.copy .stored)) rfl
      simp only [Use.copy, onUse, inner]
      rfl

theorem onUses_restore
    : ∀ (uses : List (String × Use)) (scope : Scope),
      restore.onUses scope (copyUses .stored uses) = .ok (copyUses .restored uses)
  | [], _ => rfl
  | (name, use) :: uses, scope => by
      have first := onUse_restore name use scope
      have rest := onUses_restore uses scope
      simp only [copyUses, onUses, first, rest, ok_bind]
      rfl

end

end Pass

/-- What is restored of a copy that was read is a copy of the original. -/
theorem Document.restore_copy (d : Document) (directory : Path)
    : (d.copy .stored).restore directory = .ok { d.copy .restored with directory } := by
  let s : Document := { d.copy .stored with directory }
  have library := Pass.onLibrary_restore .api d.library s.scope rfl
  have resources := Pass.onResources_restore s.scope d.resources
  have parameters := Pass.restore_properties s.scope d.baseUriParameters
  have ran : Pass.restore.run .api s = .ok { d.copy .restored with directory } := by
    rw [Pass.run]
    exact bind_eq_ok_iff.mpr ⟨_, library, bind_eq_ok_iff.mpr ⟨_, resources,
      bind_eq_ok_iff.mpr ⟨_, parameters, rfl⟩⟩⟩
  exact ran

-----------------------------------------------------------------------------------------
-- What is written again
-----------------------------------------------------------------------------------------

/-- Restored values are written as they were read: binary content and its text look alike. -/
theorem Value.toJson_restored (kind : Kind) (included : Bool) (v : Value)
    : (v.restored kind included).toJson = v.toJson := by
  rw [restored]
  split
  · cases bytes : v.decodeBinary? with
    | none => rfl
    | some content =>
        obtain ⟨text, same, bytes⟩ := Option.bind_eq_some_iff.mp bytes
        obtain ⟨_, decoded, binary⟩ := Option.bind_eq_some_iff.mp bytes
        cases binary
        cases v with
        | string s =>
            cases same
            exact congrArg Json.str (Base64.encode_of_decode? decoded)
        | _ => cases same
  · rfl

theorem Annotation.toJson_restored (key : String) (a : Annotation)
    : (a.restored library key).toJson = a.toJson := by
  cases value : a.value with
  | none => simp [toJson, restored, value]; rfl
  | some v =>
      by_cases null : v.toJson = .null
      · simp [toJson, restored, value, null, Value.reread?_of_null null]; rfl
      · simp [toJson, restored, value, Value.reread?_of_ne_null null, v.toJson_reread]

/-- Nothing that restoring changes is written. -/
theorem Copying.faithful_restored : (Copying.restored library).Faithful where
  pattern kind s f := by
    simp only [restored, unlinked]
    split <;> rfl
  fileTypes kind s f := by
    simp only [restored, unlinked]
    split <;> rfl
  bounds t := by
    by_cases file : t.kind = .file
    · simp [TypeNode.lengthBounds, TypeNode.copyOwn, restored, unlinked, file]
    · simp [TypeNode.lengthBounds, TypeNode.copyOwn, restored, unlinked, file]
  applied key a := a.toJson_restored library key
  value kind included v := by
    simp only [restored, unlinked, Option.map_map]
    rw [← Value.map_toJson_reread?]
    exact Option.map_congr fun u _ => u.toJson_restored kind included

/-- What is written of a restored copy. -/
theorem Document.omits_restored (d : Document) (directory : Path)
    : Json.Omits (Leaf.nulls d.allLeaves) { d.copy .restored with directory }.toJson d.toJson :=
  d.omits_copy fun l => Copying.faithful_restored (l.copy .stored)

end Raml
