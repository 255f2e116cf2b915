import Raml.Proofs.Cache.Recall

/-! What a cache keeps of a document, and what it loses: where something is null, nothing is left.
-/

namespace Raml

open Json (ReadsBack)
open Yaml (Node)

variable {library : Library} {leaf : Leaf}

-----------------------------------------------------------------------------------------
-- Leaves that are restored
-----------------------------------------------------------------------------------------

namespace Leaf

/-- What a type or a property is called, and what follows from its name. -/
def identity? : Leaf → Option Leaf
  | .typeName name baseName isArray kind => some (.typeName name baseName isArray kind)
  | .property key name => some (.property key name)
  | _ => none

/-- Whether there is something where nothing has to be. -/
def present : Leaf → Bool
  | .exampleValue _ value _ _ => value.isSome
  | .fragment f => f.isSome
  | _ => true

/-- Types and properties are restored as they were. -/
theorem identity?_restored (sound : leaf.Sound)
    : ((Copying.restored library).leaf leaf).identity? = leaf.identity? := by
  cases leaf with
  | typeName name baseName isArray kind =>
      have names : (Copying.restored library).names name = (baseName, isArray) := sound.1
      rw [Copying.leaf, names]
  | property key name =>
      cases sound
      rfl
  | _ => rfl

/-- There are none if no leaf is null. -/
theorem nulls_eq_zero_iff (leaves : List Leaf)
    : nulls leaves = 0 ↔ ∀ leaf ∈ leaves, leaf.holdsNull = false := by
  simp [nulls]

/-- What is null is lost. -/
theorem present_restored (library : Library) (leaf : Leaf)
    : ((Copying.restored library).leaf leaf).present = (leaf.present && !leaf.holdsNull) := by
  cases leaf with
  | exampleValue kind value included loaded =>
      cases value with
      | none => rfl
      | some v =>
          by_cases null : v.toJson = .null
          · simp [Copying.leaf, Copying.restored, Copying.unlinked, present,
              Value.reread?_of_null null, null, Json.isNull]
          · simp [Copying.leaf, Copying.restored, Copying.unlinked, present,
              Value.reread?_of_ne_null null, Json.isNull]
  | fragment f =>
      cases f with
      | none => rfl
      | some j => cases j <;> rfl
  | _ => rfl

end Leaf

-----------------------------------------------------------------------------------------
-- Documents that are recalled
-----------------------------------------------------------------------------------------

/-- What is said of leaves is said of restored ones if restoring a leaf keeps it. -/
theorem Document.map_allLeaves_restored {α : Type} {d r : Document} {f g : Leaf → α}
    (leaves : r.leaves = d.leaves.map CopyingIn.restored.leaf)
    (each : ∀ library, ∀ leaf ∈ d.allLeaves, f ((Copying.restored library).leaf leaf) = g leaf)
    : r.allLeaves.map f = d.allLeaves.map g := by
  rw [allLeaves, leaves, allLeaves, List.map_map, List.map_map, List.map_map]
  exact List.map_congr_left fun entry member => each _ _ (List.mem_map_of_mem member)

namespace Parser

variable {p : Parser} {d s : Document}

/-- A document in which nothing is null is restored as it was: the same is written of it, and its
types and properties are called the same, with all that follows from their names. -/
theorem restore_withoutNulls (recalls : p.Recalls d s)
    (floats : ∀ x ∈ d.toJson.floats, ReadsBack x)
    (filled : ∀ leaf ∈ d.allLeaves, leaf.holdsNull = false) (directory : Path)
    : ∃ r, s.restore directory = .ok r ∧ r.toJson = d.toJson
        ∧ r.allLeaves.map Leaf.identity? = d.allLeaves.map Leaf.identity? := by
  obtain ⟨r, restored, leaves, omits⟩ := recalls.exists_restored floats directory
  have same : r.toJson = d.toJson := omits.eq_iff.mpr ((Leaf.nulls_eq_zero_iff _).mpr filled)
  have identities := Document.map_allLeaves_restored leaves fun _ leaf member =>
    Leaf.identity?_restored (recalls.complete.sound leaf member)
  exact ⟨r, restored, same, identities⟩

/-- A document of a type with a property and an example. -/
def vocabulary : Node :=
  .map [(.str "title", .str "Words"),
    (.str "types", .map [(.str "Entry", .map [
      (.str "properties", .map [(.str "words", .str "string[]")]),
      (.str "example", .map [(.str "words", .seq [.str "ibex"])])])])]

/-- Nothing in it is null, and it comes back as it was. -/
theorem restore_vocabulary
    : ∃ d s, ({} : Parser).recalled? vocabulary = some (d, s) ∧ ({} : Parser).Recalls d s
        ∧ (∀ x ∈ d.toJson.floats, ReadsBack x) ∧ (∀ leaf ∈ d.allLeaves, leaf.holdsNull = false)
        ∧ ∃ r, s.restore ⟨"words"⟩ = .ok r ∧ r.toJson = d.toJson
          ∧ r.allLeaves.map Leaf.identity? = d.allLeaves.map Leaf.identity? := by
  obtain ⟨d, s, recalled, recalls, checked⟩ := by
    apply exists_recalls (p := {}) vocabulary fun d =>
      d.toJson.floats.isEmpty && d.allLeaves.all (!·.holdsNull)
    decide +kernel
  obtain ⟨floats, filled⟩ := Bool.and_eq_true_iff.mp checked
  have floats : ∀ x ∈ d.toJson.floats, ReadsBack x := by simp [List.isEmpty_iff.mp floats]
  have filled : ∀ leaf ∈ d.allLeaves, leaf.holdsNull = false := by simpa using filled
  exact ⟨d, s, recalled, recalls, floats, filled, restore_withoutNulls recalls floats filled ⟨"words"⟩⟩

/-- What is null in a document is not there any more when it is restored, and all else that is there
is. The same is written of it exactly if nothing in it is null. -/
theorem restore_nulls (recalls : p.Recalls d s) (floats : ∀ x ∈ d.toJson.floats, ReadsBack x)
    (directory : Path)
    : ∃ r, s.restore directory = .ok r
        ∧ r.allLeaves.map Leaf.present
          = d.allLeaves.map (fun leaf => leaf.present && !leaf.holdsNull)
        ∧ (r.toJson = d.toJson ↔ ∀ leaf ∈ d.allLeaves, leaf.holdsNull = false) := by
  obtain ⟨r, restored, leaves, omits⟩ := recalls.exists_restored floats directory
  have presence := Document.map_allLeaves_restored leaves fun library leaf _ =>
    Leaf.present_restored library leaf
  exact ⟨r, restored, presence, omits.eq_iff.trans (Leaf.nulls_eq_zero_iff _)⟩

/-- A document of a type whose default value is a null with a tag of its own. -/
def menu : Node :=
  .map [(.str "title", .str "Menu"),
    (.str "types", .map [(.str "Price", .map [(.str "type", .str "string"),
      (.str "default", .tagged "unknown" .null)])])]

/-- Its default value is there, and is null. -/
theorem recalls_menu
    : ∃ d s, ({} : Parser).recalled? menu = some (d, s) ∧ ({} : Parser).Recalls d s
        ∧ (∀ x ∈ d.toJson.floats, ReadsBack x)
        ∧ ∃ leaf ∈ d.allLeaves, leaf.present = true ∧ leaf.holdsNull = true := by
  obtain ⟨d, s, recalled, recalls, checked⟩ := by
    apply exists_recalls (p := {}) menu fun d =>
      d.toJson.floats.isEmpty && d.allLeaves.any fun leaf => leaf.present && leaf.holdsNull
    decide +kernel
  obtain ⟨floats, null⟩ := Bool.and_eq_true_iff.mp checked
  exact ⟨d, s, recalled, recalls, by simp [List.isEmpty_iff.mp floats], by simpa using null⟩

/-- So the default value is lost, and what is written of the document differs. -/
theorem restore_menu
    : ∃ d s, ({} : Parser).recalled? menu = some (d, s) ∧ ({} : Parser).Recalls d s
        ∧ (∀ x ∈ d.toJson.floats, ReadsBack x)
        ∧ ∃ r, s.restore ⟨"menus"⟩ = .ok r
          ∧ r.allLeaves.map Leaf.present
            = d.allLeaves.map (fun leaf => leaf.present && !leaf.holdsNull)
          ∧ (r.toJson = d.toJson ↔ ∀ leaf ∈ d.allLeaves, leaf.holdsNull = false) := by
  obtain ⟨d, s, recalled, recalls, floats, -⟩ := recalls_menu
  exact ⟨d, s, recalled, recalls, floats, restore_nulls recalls floats ⟨"menus"⟩⟩

/-- Not all that is there is there again, and not the same is written again. -/
theorem not_restore_present
    : ∃ d s r, ({} : Parser).recalled? menu = some (d, s) ∧ ({} : Parser).Recalls d s
        ∧ s.restore ⟨"menus"⟩ = .ok r
        ∧ r.allLeaves.map Leaf.present ≠ d.allLeaves.map Leaf.present ∧ r.toJson ≠ d.toJson := by
  obtain ⟨d, s, recalled, recalls, floats, leaf, member, there, null⟩ := recalls_menu
  obtain ⟨r, restored, leaves, omits⟩ := recalls.exists_restored floats ⟨"menus"⟩
  have presence := Document.map_allLeaves_restored leaves fun library leaf _ =>
    Leaf.present_restored library leaf
  refine ⟨d, s, r, recalled, recalls, restored, fun same => ?_, fun same => ?_⟩
  · have kept : (leaf.present && !leaf.holdsNull) = leaf.present :=
      List.map_inj_left.mp (presence.symm.trans same) leaf member
    rw [there, null] at kept
    cases kept
  · have filled := (Leaf.nulls_eq_zero_iff _).mp (omits.eq_iff.mp same) leaf member
    cases filled.symm.trans null

end Parser

end Raml
