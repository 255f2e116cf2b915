import Raml.Proofs.Cache.Recall

/-! What the annotations of a document are linked to that a cache recalls: whatever they were linked
to, it is what their names denote in the library around them, as it was read.
-/

namespace Raml

open Json (ReadsBack)
open Yaml (Node)

namespace AnnotationType

/-- The type by which an annotation is declared, and its kind. -/
def identity (declared : AnnotationType) : String × Kind :=
  (declared.type.typeName, declared.type.kind)

/-- A declaration in which nothing that follows from names has been restored. -/
structure Unnamed (declared : AnnotationType) : Prop where
  baseName : declared.type.baseName = ""
  isArray : declared.type.isArray = false
  properties : ∀ entry ∈ declared.type.properties, entry.2.name = ""

/-- What is stored of a declaration has its name and kind. -/
theorem identity_copy_stored (declared : AnnotationType)
    : (declared.copy .stored).identity = declared.identity := by
  rw [copy, TypeNode.copy_eq]
  rfl

/-- What is stored of a declaration has nothing that is derived from names. -/
theorem unnamed_copy_stored (declared : AnnotationType) : (declared.copy .stored).Unnamed := by
  rw [copy, TypeNode.copy_eq]
  refine ⟨rfl, rfl, fun entry member => ?_⟩
  have member : entry ∈ copyProperties .stored declared.type.properties := member
  rw [copyProperties_eq] at member
  obtain ⟨⟨key, _, _, _⟩, -, rfl⟩ := List.mem_map.mp member
  rfl

end AnnotationType

/-- An annotation that stands in a library, and what it is once the document has been restored. -/
structure Annotation.Relinked (l : Library) (a a' : Annotation) : Prop where
  linked : a.declared.isSome
  name : a'.name = a.name
  /-- It is linked if its name denotes something in the library, wherever it was written. -/
  isSome_iff : a'.declared.isSome ↔ (l.getAnnotationType? a.name).isSome
  /-- The declaration is the one of that name in the library. -/
  identity : a'.declared.map AnnotationType.identity
    = (l.getAnnotationType? a.name).map AnnotationType.identity
  unnamed : ∀ declared ∈ a'.declared, declared.Unnamed

/-- Whether an annotation, if a leaf is one, is linked. -/
def Leaf.isLinked : Leaf → Bool
  | .applied _ a => a.declared.isSome
  | _ => true

namespace Parser

variable {p : Parser} {d s : Document}

/-- In a document that is recalled, each annotation is linked anew, to what its key denotes in the
library around it. -/
theorem Recalls.relinked (recalls : p.Recalls d s) {l : Library} {key : String} {a : Annotation}
    (member : (l, Leaf.applied key a) ∈ d.leaves)
    : a.Relinked l (a.restored (l.copy .stored) key) := by
  obtain ⟨-, same, -, linked⟩ := recalls.complete _ (List.mem_map_of_mem member)
  have declared : (a.restored (l.copy .stored) key).declared
      = (l.getAnnotationType? a.name).map (AnnotationType.copy .stored) := by
    rw [same]
    exact l.getAnnotationType?_copy key
  refine ⟨linked, same.symm, by rw [declared, Option.isSome_map], ?_, ?_⟩
  · rw [declared, Option.map_map]
    exact congrArg (Option.map · _) (funext AnnotationType.identity_copy_stored)
  · intro found member
    rw [declared] at member
    obtain ⟨own, -, rfl⟩ := Option.map_eq_some_iff.mp member
    exact own.unnamed_copy_stored

/-- Every annotation stays where it is when a document is restored, and is linked to what its name
denotes in the library around it. What follows from names is missing in what it is linked to. -/
theorem restore_links (recalls : p.Recalls d s) (floats : ∀ x ∈ d.toJson.floats, ReadsBack x)
    (directory : Path)
    : ∃ r, s.restore directory = .ok r
        ∧ List.Forall₂ (fun (place : Library × Leaf) leaf => ∀ key a, place.2 = .applied key a →
            ∃ a', leaf = .applied key a' ∧ a.Relinked place.1 a') d.leaves r.allLeaves := by
  obtain ⟨r, restored, leaves, -⟩ := recalls.exists_restored floats directory
  refine ⟨r, restored, ?_⟩
  rw [Document.allLeaves, leaves, List.map_map, List.forall₂_map_right_iff, List.forall₂_same]
  rintro ⟨l, leaf⟩ member key a rfl
  exact ⟨_, rfl, recalls.relinked member⟩

/-- A document with a type from a library, from which it inherits an annotation. -/
def notebook : Node :=
  .map [(.str "title", .str "Notebook"),
    (.str "uses", .map [(.str "lib", .map [
      (.str "annotationTypes", .map [(.str "tag", .str "string")]),
      (.str "types", .map [(.str "Word", .map [(.str "type", .str "string"),
        (.str "(tag)", .str "x")])])])]),
    (.str "types", .map [(.str "Entry", .str "lib.Word")])]

/-- The entry's annotation is linked to a declaration of the other library, and its name denotes
none in its own. -/
theorem recalls_notebook
    : ∃ d s, ({} : Parser).recalled? notebook = some (d, s) ∧ ({} : Parser).Recalls d s
        ∧ (∀ x ∈ d.toJson.floats, ReadsBack x)
        ∧ ∃ place ∈ d.leaves, ∃ key a, place.2 = .applied key a ∧ a.declared.isSome
          ∧ (place.1.getAnnotationType? a.name).isSome = false := by
  let astray (place : Library × Leaf) : Bool :=
    match place.2 with
    | .applied _ a => a.declared.isSome && !(place.1.getAnnotationType? a.name).isSome
    | _ => false
  obtain ⟨d, s, recalled, recalls, checked⟩ := by
    apply exists_recalls (p := {}) notebook fun d =>
      d.toJson.floats.isEmpty && d.leaves.any astray
    decide +kernel
  obtain ⟨floats, found⟩ := Bool.and_eq_true_iff.mp checked
  obtain ⟨⟨l, leaf⟩, member, found⟩ := List.any_eq_true.mp found
  refine ⟨d, s, recalled, recalls, by simp [List.isEmpty_iff.mp floats], (l, leaf), member, ?_⟩
  cases leaf with
  | applied key a => exact ⟨key, a, rfl, by simpa [astray] using found⟩
  | _ => cases found

/-- So it is linked to nothing when it is restored. -/
theorem restore_links_notebook
    : ∃ d s, ({} : Parser).recalled? notebook = some (d, s) ∧ ({} : Parser).Recalls d s
        ∧ (∀ x ∈ d.toJson.floats, ReadsBack x)
        ∧ ∃ r, s.restore ⟨"notes"⟩ = .ok r
          ∧ List.Forall₂ (fun (place : Library × Leaf) leaf => ∀ key a, place.2 = .applied key a →
              ∃ a', leaf = .applied key a' ∧ a.Relinked place.1 a') d.leaves r.allLeaves := by
  obtain ⟨d, s, recalled, recalls, floats, -⟩ := recalls_notebook
  exact ⟨d, s, recalled, recalls, floats, restore_links recalls floats ⟨"notes"⟩⟩

/-- Not all that is linked is linked again. -/
theorem not_restore_links
    : ∃ d s r, ({} : Parser).recalled? notebook = some (d, s) ∧ ({} : Parser).Recalls d s
        ∧ s.restore ⟨"notes"⟩ = .ok r
        ∧ r.allLeaves.map Leaf.isLinked ≠ d.allLeaves.map Leaf.isLinked := by
  obtain ⟨d, s, recalled, recalls, floats, ⟨l, _⟩, member, key, a, rfl, linked, unknown⟩ :=
    recalls_notebook
  obtain ⟨r, restored, leaves, -⟩ := recalls.exists_restored floats ⟨"notes"⟩
  refine ⟨d, s, r, recalled, recalls, restored, fun same => ?_⟩
  rw [Document.allLeaves, Document.allLeaves, leaves, List.map_map, List.map_map, List.map_map]
    at same
  have kept : (a.restored (l.copy .stored) key).declared.isSome = a.declared.isSome :=
    List.map_inj_left.mp same _ member
  have lost := (recalls.relinked member).isSome_iff
  rw [kept, linked, unknown] at lost
  exact Bool.false_ne_true (lost.mp rfl)

end Parser

end Raml
