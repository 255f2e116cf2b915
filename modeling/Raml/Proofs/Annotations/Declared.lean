import Raml.Proofs.Documents.Parts
import Raml.Proofs.Resolution.Inheritance

/-! Declarations of annotations, as libraries see them: resolving a library changes no more of them
than their types.
-/

namespace Raml

open Raml.TypeName (leadFrom)

-----------------------------------------------------------------------------------------
-- Links
-----------------------------------------------------------------------------------------

namespace Annotation

variable {l : Library} {a : Annotation}

@[simp] theorem name_link (l : Library) (a : Annotation) : (a.link l).name = a.name := by
  unfold link
  split <;> rfl

@[simp] theorem value_link (l : Library) (a : Annotation) : (a.link l).value = a.value := by
  unfold link
  split <;> rfl

/-- What is linked stays as it is. -/
theorem link_of_declared (h : a.declared.isSome = true) : a.link l = a := by
  rw [link, if_pos h]

/-- An annotation that is not linked yet is linked to what its name denotes. -/
theorem declared_link (h : a.declared = none)
    : (a.link l).declared = l.getAnnotationType? a.name := by
  simp [link, h]

/-- Where no declaration is found, nothing changes. -/
theorem link_of_missing (h : (a.link l).declared = none) : a.link l = a := by
  unfold link at h ⊢
  split at h
  · rename_i linked
    rw [h] at linked
    cases linked
  · rename_i unlinked
    obtain ⟨value, name, declared⟩ := a
    rw [Option.not_isSome_iff_eq_none] at unlinked
    simp_all

end Annotation

-----------------------------------------------------------------------------------------
-- Libraries that declare the same
-----------------------------------------------------------------------------------------

namespace Library

variable {l m r : Library}

/-- Two tables of declarations under the same names, each allowing the same places. -/
def SameTargets (types types' : AnnotationTypes) : Prop :=
  ∀ name, Option.Rel (fun a a' => a'.allowedTargets = a.allowedTargets)
    (Keyed.get? types name) (Keyed.get? types' name)

/-- The same names denote declarations of annotations in both libraries, and these allow the same
places. -/
def SameAnnotations (l m : Library) : Prop :=
  ∀ name, Option.Rel (fun a a' => a'.allowedTargets = a.allowedTargets)
    (l.getAnnotationType? name) (m.getAnnotationType? name)

/-- Declarations allow the same places as they do themselves. -/
theorem SameTargets.refl (types : AnnotationTypes) : SameTargets types types := by
  intro name
  cases Keyed.get? types name with
  | none => exact .none
  | some a => exact .some rfl

/-- Resolution changes nothing but the types of declarations. -/
theorem sameTargets_of_resolve (ok : l.resolve = .ok r)
    : SameTargets l.annotationTypes r.annotationTypes := by
  intro name
  have own : (l.withUses r.uses).annotationTypes = l.annotationTypes := rfl
  rw [eq_of_resolve ok, withResolvedTypes, Keyed.get?_mapValues, own]
  cases Keyed.get? l.annotationTypes name with
  | none => exact .none
  | some a => exact .some rfl

/-- A name is looked up in the library that its namespaces lead to, under its last part. -/
theorem getAnnotationType?_eq (l : Library) (name : String)
    : l.getAnnotationType? name
      = (l.descend? (TypeName.parts name).dropLast).bind fun m =>
          Keyed.get? m.annotationTypes ((TypeName.parts name).getLastD "") := by
  simp only [getAnnotationType?, qualified?]
  cases l.descend? (TypeName.parts name).dropLast <;> rfl

/-- Namespaces lead to libraries that declare the same. -/
theorem sameAnnotations_of_descend?
    (h : ∀ path, Option.Rel (fun m m' => SameTargets m.annotationTypes m'.annotationTypes)
      (l.descend? path) (m.descend? path))
    : l.SameAnnotations m := by
  intro name
  rw [getAnnotationType?_eq, getAnnotationType?_eq]
  have related := h (TypeName.parts name).dropLast
  generalize l.descend? (TypeName.parts name).dropLast = before,
    m.descend? (TypeName.parts name).dropLast = after at related
  cases related with
  | none => exact .none
  | some same => exact same _

/-- Resolving types changes no declaration of an annotation as far as links are concerned. -/
theorem SameAnnotations.of_resolve (ok : l.resolve = .ok r) : l.SameAnnotations r := by
  apply sameAnnotations_of_descend?
  intro path
  have related := descend?_resolved ok path
  generalize l.descend? path = before, r.descend? path = after at related
  cases related with
  | none => exact .none
  | some resolved => exact .some (sameTargets_of_resolve resolved)

/-- As seen from a library while its own types are resolved. -/
theorem SameAnnotations.scope (ok : l.resolve = .ok r) : l.SameAnnotations l.scope := by
  have uses := (resolution_of_resolve ok).uses
  rw [scope_eq uses]
  apply sameAnnotations_of_descend?
  intro path
  cases path with
  | nil => exact .some (SameTargets.refl l.annotationTypes)
  | cons name path =>
      have related := descend?_of_uses (r := l.withUses r.uses) uses (List.cons_ne_nil name path)
      generalize l.descend? (name :: path) = before,
        (l.withUses r.uses).descend? (name :: path) = after at related
      cases related with
      | none => exact .none
      | some resolved => exact .some (sameTargets_of_resolve resolved)

/-- It makes no difference to whether an annotation is linked from which library it is seen. -/
theorem SameAnnotations.declared_link_eq_none_iff (same : l.SameAnnotations m) {a : Annotation}
    : (a.link m).declared = none ↔ (a.link l).declared = none := by
  cases unlinked : a.declared with
  | some =>
      have linked : a.declared.isSome = true := by rw [unlinked, Option.isSome_some]
      rw [a.link_of_declared linked, a.link_of_declared linked]
  | none =>
      rw [a.declared_link unlinked, a.declared_link unlinked]
      have related := same a.name
      generalize l.getAnnotationType? a.name = before, m.getAnnotationType? a.name = after
        at related
      cases related <;> simp

end Library

end Raml
