import Raml.Proofs.Cache.Recall

/-! The values of examples of files that a cache recalls: what was read from a file is binary again, and
of what was not all that is binary is text.
-/

namespace Raml

open Json (ReadsBack)
open Yaml (Node)

namespace Value

mutual

/-- Whether nothing in a value is written as something else: no binary content as its text, no number
that is not finite as null. -/
def isPlain : Value → Bool
  | .null | .boolean _ | .integer _ | .string _ => true
  | .number x => x.isFinite
  | .array items => arePlain items
  | .object members => arePlainMembers members
  | .binary _ => false

def arePlain : List Value → Bool
  | [] => true
  | v :: vs => v.isPlain && arePlain vs

def arePlainMembers : List (String × Value) → Bool
  | [] => true
  | (_, v) :: ms => v.isPlain && arePlainMembers ms

end

mutual

/-- Values that are plain are read as they were written, and no others are. -/
theorem reread_eq_iff : ∀ v : Value, v.reread = v ↔ v.isPlain = true
  | .null | .boolean _ | .string _ => ⟨fun _ => rfl, fun _ => rfl⟩
  | .binary _ => ⟨nofun, nofun⟩
  | .integer i => by
      have word : int64? i.toInt = some i := int64?_eq_some_iff.mpr rfl
      simp [reread, toJson, ofJson, ofInt, word, isPlain]
  | .number x => by
      by_cases finite : x.isFinite <;> simp [reread, toJson, ofJson, isPlain, finite]
  | .array items => by
      have inside := rereadItems_eq_iff items
      simpa [reread, toJson, ofJson, isPlain] using inside
  | .object members => by
      have inside := rereadMembers_eq_iff members
      simpa [reread, toJson, ofJson, isPlain] using inside

/-- Items are the same again if all of them are plain. -/
theorem rereadItems_eq_iff
    : ∀ vs : List Value, ofJsonItems (toJsonItems vs) = vs ↔ arePlain vs = true
  | [] => ⟨fun _ => rfl, fun _ => rfl⟩
  | v :: vs => by
      have first := reread_eq_iff v
      have rest := rereadItems_eq_iff vs
      rw [reread] at first
      simp [toJsonItems, ofJsonItems, arePlain, first, rest]

theorem rereadMembers_eq_iff
    : ∀ ms : List (String × Value), ofJsonMembers (toJsonMembers ms) = ms
        ↔ arePlainMembers ms = true
  | [] => ⟨fun _ => rfl, fun _ => rfl⟩
  | (key, v) :: ms => by
      have first := reread_eq_iff v
      have rest := rereadMembers_eq_iff ms
      rw [reread] at first
      simp [toJsonMembers, ofJsonMembers, arePlainMembers, first, rest]

end

/-- A value is there as it was if it is plain and not null. -/
theorem reread?_eq_some_iff {v : Value} : v.reread? = some v ↔ v.isPlain = true ∧ v ≠ .null := by
  by_cases null : v.toJson = .null
  · rw [reread?_of_null null]
    cases v with
    | null => simp
    | number x =>
        have endless : x.isFinite = false := by simpa [toJson] using null
        simp [isPlain, endless]
    | _ => cases null
  · have there : v ≠ .null := fun same => null (same ▸ rfl)
    simp [reread?_of_ne_null null, reread_eq_iff, there]

/-- The text of binary content stands for it where a file is its origin. -/
theorem restored_binary (bytes : Bytes)
    : (reread (.binary bytes)).restored .file true = .binary bytes := by
  simp [reread, toJson, ofJson, restored, decodeBinary?, text?, Base64.decode?_encode]

end Value

/-- Whether the value of an example, if a leaf is one, is binary. -/
def Leaf.isBinary : Leaf → Bool
  | .exampleValue _ (some (.binary _)) _ _ => true
  | _ => false

/-- Whether a leaf is a binary value of a file, taken from another example. -/
def Leaf.isTaken : Leaf → Bool
  | .exampleValue .file (some (.binary _)) false _ => true
  | _ => false

/-- Such a leaf is binary content of an example that comes from no file itself. -/
theorem Leaf.eq_of_isTaken {l : Leaf} (h : l.isTaken = true)
    : ∃ bytes loaded, l = .exampleValue .file (some (.binary bytes)) false loaded := by
  unfold isTaken at h
  split at h
  · exact ⟨_, _, rfl⟩
  · cases h

namespace Parser

variable {p : Parser} {d s : Document}

/-- The value of an example of a file is the same again if it comes from a file itself, or if nothing
in it is written as something else. -/
theorem Recalls.value_eq_iff (recalls : p.Recalls d s) {value : Option Value} {included loaded : Bool}
    (member : Leaf.exampleValue .file value included loaded ∈ d.allLeaves)
    : (value.bind fun v => v.reread?.map (Value.restored .file included)) = value
      ↔ included = true ∨ ∀ v ∈ value, v.isPlain = true ∧ v ≠ .null := by
  obtain ⟨-, read⟩ := recalls.complete _ member
  cases included with
  | true =>
      obtain ⟨bytes, rfl⟩ := (read rfl).2 rfl
      have text : (Value.binary bytes).toJson ≠ .null := nofun
      simp [Value.reread?_of_ne_null text, Value.restored_binary]
  | false =>
      cases value with
      | none => simp
      | some v =>
          have same : Value.restored .file false = id := Value.restored_of_not (by simp)
          simp [same, Value.reread?_eq_some_iff]

/-- When a document is restored, the value of an example of a file is what it was exactly if it comes
from a file itself, or if nothing in it is written as something else. -/
theorem restore_contents (recalls : p.Recalls d s) (floats : ∀ x ∈ d.toJson.floats, ReadsBack x)
    (directory : Path)
    : ∃ r, s.restore directory = .ok r
        ∧ List.Forall₂ (fun leaf leaf' => ∀ value included loaded,
            leaf = .exampleValue .file value included loaded →
            ∃ value', leaf' = .exampleValue .file value' included included
              ∧ (value' = value
                ↔ included = true ∨ ∀ v ∈ value, v.isPlain = true ∧ v ≠ .null))
          d.allLeaves r.allLeaves := by
  obtain ⟨r, restored, leaves, -⟩ := recalls.exists_restored floats directory
  refine ⟨r, restored, ?_⟩
  rw [Document.allLeaves, Document.allLeaves, leaves, List.map_map, List.forall₂_map_left_iff,
    List.forall₂_map_right_iff, List.forall₂_same]
  rintro ⟨l, leaf⟩ member value included loaded rfl
  exact ⟨_, rfl, recalls.value_eq_iff (List.mem_map_of_mem member)⟩

/-- A document of a type with a picture that is in a file, and of one that takes its example from it. -/
def album : Node :=
  .map [(.str "title", .str "Album"),
    (.str "types", .map [
      (.str "Picture", .map [(.str "type", .str "file"),
        (.str "example", .tagged "include" (.str "picture.png"))]),
      (.str "Cover", .str "Picture")])]

/-- A parser that finds a file of one byte under every path. -/
def oneByte : Parser := { source := { Source.empty with read := fun _ => .ok [0x50] } }

/-- The cover has the picture for an example, and no file of its own. -/
theorem recalls_album
    : ∃ d s, oneByte.recalled? album = some (d, s) ∧ oneByte.Recalls d s
        ∧ (∀ x ∈ d.toJson.floats, ReadsBack x)
        ∧ ∃ bytes loaded,
          Leaf.exampleValue .file (some (.binary bytes)) false loaded ∈ d.allLeaves := by
  obtain ⟨d, s, recalled, recalls, checked⟩ := by
    apply exists_recalls (p := oneByte) album fun d =>
      d.toJson.floats.isEmpty && d.allLeaves.any Leaf.isTaken
    decide +kernel
  obtain ⟨floats, found⟩ := Bool.and_eq_true_iff.mp checked
  obtain ⟨leaf, member, taken⟩ := List.any_eq_true.mp found
  obtain ⟨bytes, loaded, rfl⟩ := Leaf.eq_of_isTaken taken
  exact ⟨d, s, recalled, recalls, by simp [List.isEmpty_iff.mp floats], bytes, loaded, member⟩

/-- Its text comes back as text. -/
theorem restore_contents_album
    : ∃ d s, oneByte.recalled? album = some (d, s) ∧ oneByte.Recalls d s
        ∧ (∀ x ∈ d.toJson.floats, ReadsBack x)
        ∧ ∃ r, s.restore ⟨"albums"⟩ = .ok r
          ∧ List.Forall₂ (fun leaf leaf' => ∀ value included loaded,
              leaf = .exampleValue .file value included loaded →
              ∃ value', leaf' = .exampleValue .file value' included included
                ∧ (value' = value
                  ↔ included = true ∨ ∀ v ∈ value, v.isPlain = true ∧ v ≠ .null))
            d.allLeaves r.allLeaves := by
  obtain ⟨d, s, recalled, recalls, floats, -⟩ := recalls_album
  exact ⟨d, s, recalled, recalls, floats, restore_contents recalls floats ⟨"albums"⟩⟩

/-- Not all that is binary is binary again. -/
theorem not_restore_contents
    : ∃ d s r, oneByte.recalled? album = some (d, s) ∧ oneByte.Recalls d s
        ∧ s.restore ⟨"albums"⟩ = .ok r
        ∧ r.allLeaves.map Leaf.isBinary ≠ d.allLeaves.map Leaf.isBinary := by
  obtain ⟨d, s, recalled, recalls, floats, bytes, loaded, member⟩ := recalls_album
  obtain ⟨r, restored, leaves, -⟩ := recalls.exists_restored floats ⟨"albums"⟩
  refine ⟨d, s, r, recalled, recalls, restored, fun same => ?_⟩
  obtain ⟨⟨l, _⟩, member, rfl⟩ := List.mem_map.mp member
  rw [Document.allLeaves, Document.allLeaves, leaves, List.map_map, List.map_map, List.map_map]
    at same
  have kept : ((Copying.restored (l.copy .stored)).leaf
      (.exampleValue .file (some (.binary bytes)) false loaded)).isBinary = true :=
    List.map_inj_left.mp same _ member
  have lost : ((Copying.restored (l.copy .stored)).leaf
      (.exampleValue .file (some (.binary bytes)) false loaded)).isBinary = false := rfl
  cases kept.symm.trans lost

end Parser

end Raml
