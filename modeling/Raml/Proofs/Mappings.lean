import Raml.Proofs.Collections
import Raml.Proofs.Decoding

/-! The entries of a mapping by the texts of their keys, and what fields make of them.

A field that is known is the first entry of its key, and a collection keeps the last one of each.
What is neither known nor an annotation is left over.
-/

namespace Raml

open Yaml (Node)

-----------------------------------------------------------------------------------------
-- Look-up
-----------------------------------------------------------------------------------------

namespace Keyed

variable {α β : Type}

/-- To get an entry is to look its key up in the list. -/
theorem get?_eq_lookup (m : Keyed α) (key : String) : get? m key = List.lookup key m := by
  induction m with
  | nil => rfl
  | cons entry m ih =>
      obtain ⟨k, v⟩ := entry
      by_cases same : k = key
      · simp [same]
      · simp [same, List.lookup_cons, beq_false_of_ne (Ne.symm same), ih]

/-- Other keys may be left out. -/
theorem get?_filter {wanted : String → Bool} {key : String} (isWanted : wanted key = true)
    (m : Keyed α)
    : get? (m.filter fun entry => wanted entry.1) key = get? m key := by
  induction m with
  | nil => rfl
  | cons entry m ih =>
      obtain ⟨k, v⟩ := entry
      cases known : wanted k with
      | true => simp [known, ih]
      | false =>
          have apart : k ≠ key := by
            rintro rfl
            cases known.symm.trans isWanted
          simp [known, apart, ih]

/-- The key goes with its entry. -/
theorem keys_erase (m : Keyed α) (key : String) : (m.erase key).keys = List.erase m.keys key := by
  induction m with
  | nil => rfl
  | cons entry m ih =>
      obtain ⟨k, v⟩ := entry
      by_cases same : k = key
      · simp [erase, keys, same]
      · simpa [erase, keys, same, List.erase_cons, beq_false_of_ne same] using ih

/-- Erasing keys one after the other leaves the difference. -/
theorem keys_foldl_erase (known : List String) (m : Keyed α)
    : (known.foldl erase m).keys = m.keys.diff known := by
  induction known generalizing m with
  | nil => rfl
  | cons key known ih => rw [List.foldl_cons, ih, keys_erase, List.diff_cons]

end Keyed

/-- What is gathered is the last pair of each key. -/
theorem Gathered.mem_iff {κ α : Type} [DecidableEq κ] {pairs found : List (κ × α)}
    (h : Gathered pairs found) {key : κ} {a : α}
    : (key, a) ∈ found ↔ pairs.reverse.lookup key = some a := by
  refine ⟨fun member => h.last _ member, fun last => ?_⟩
  obtain ⟨after, before, split, -⟩ := List.lookup_eq_some_iff.mp last
  have among : key ∈ pairs.map Prod.fst := by
    rw [← List.reverse_reverse pairs, split]
    simp
  rw [← List.mem_eraseDups, ← h.keys] at among
  obtain ⟨⟨_, b⟩, member, rfl⟩ := List.mem_map.mp among
  cases last.symm.trans (h.last _ member)
  exact member

-----------------------------------------------------------------------------------------
-- Entries
-----------------------------------------------------------------------------------------

namespace Decode

/-- The entries of a mapping by the texts of their keys. Nothing else has entries. -/
def entriesOf : Node → Keyed Node
  | .map entries => entries.filterMap fun entry => entry.1.keyText.toOption.map (·, entry.2)
  | _ => []

/-- The first entry of a key. -/
def first? (node : Node) (key : String) : Option Node := (entriesOf node).get? key

/-- The last entry of a key. -/
def last? (node : Node) (key : String) : Option Node := Keyed.get? (entriesOf node).reverse key

/-- The keys of a mapping that are left over: annotations have none of them, and each known key is
taken out once. -/
def unknownKeysOf (known : List String) (node : Node) : List String :=
  ((entriesOf node).keys.diff known).filter fun key => ! Annotation.isKey key

/-- Each known key is taken out once for each time that it is listed. -/
theorem count_diff (keys known : List String) (key : String)
    : (keys.diff known).count key = keys.count key - known.count key := by
  induction known generalizing keys with
  | nil => simp
  | cons first known ih =>
      rw [List.diff_cons, ih, List.count_erase, List.count_cons]
      omega

/-- Nothing is left over if all keys are those of annotations, or they are known and stand once. -/
theorem unknownKeysOf_eq_nil_iff {known : List String} (unique : known.Nodup) {node : Node}
    : unknownKeysOf known node = []
      ↔ ∀ key ∈ (entriesOf node).keys, Annotation.isKey key = true
          ∨ key ∈ known ∧ (entriesOf node).keys.count key = 1 := by
  have left (key : String) : key ∈ (entriesOf node).keys.diff known
      ↔ known.count key < (entriesOf node).keys.count key := by
    rw [← List.count_pos_iff, count_diff]
    omega
  simp only [unknownKeysOf, List.filter_eq_nil_iff, Bool.not_eq_true', Bool.not_eq_false]
  constructor
  · intro none key member
    by_cases isKey : Annotation.isKey key = true
    · exact .inl isKey
    · have taken : ¬known.count key < (entriesOf node).keys.count key := fun more =>
        isKey (none key ((left key).mpr more))
      have stands := List.count_pos_iff.mpr member
      have once := List.nodup_iff_count_le_one.mp unique key
      exact .inr ⟨List.count_pos_iff.mp (by omega), by omega⟩
  · intro each key member
    have more := (left key).mp member
    have stands : key ∈ (entriesOf node).keys := List.count_pos_iff.mp (by omega)
    rcases each key stands with isKey | ⟨isKnown, once⟩
    · exact isKey
    · have := List.count_pos_iff.mpr isKnown
      omega

variable {node inner : Node} {key : String}

/-- The last entry of a key is one of the entries. -/
theorem mem_entriesOf_of_last? (h : last? node key = some inner) : (key, inner) ∈ entriesOf node :=
  List.mem_reverse.mp (Keyed.mem_of_get? h)

/-- What stands in a mapping is smaller than the mapping. -/
theorem sizeOf_lt_of_mem_entriesOf (h : (key, inner) ∈ entriesOf node)
    : sizeOf inner < sizeOf node := by
  cases node with
  | map entries =>
      obtain ⟨⟨of, v⟩, member, same⟩ := List.mem_filterMap.mp h
      obtain ⟨_, -, ⟨⟩⟩ := Option.map_eq_some_iff.mp same
      exact sizeOf_lt_of_mem member
  | null | bool | num | str | seq | tagged => cases h

-----------------------------------------------------------------------------------------
-- Fields
-----------------------------------------------------------------------------------------

variable {path : String} {f : Fields node} {α : Type}

/-- Fields hold the entries of their node. -/
theorem related_of_fields (h : fields node path = .ok f)
    : Keyed.Related (fun (field : Inside node) v => field.1 = v) f.entries (entriesOf node) := by
  cases node with
  | map entries =>
      suffices all : ∀ {entries : List (Node × Node)} {whole : Node}
          {fs : List (String × Inside whole)}, List.Forall₂ FieldOf entries fs
            → Keyed.Related (fun (field : Inside whole) v => field.1 = v) fs
              (entriesOf (.map entries)) from all (fieldsOf_fields h).2
      intro entries whole fs each
      induction each with
      | nil => exact .nil
      | @cons entry field entries fs first _ ih =>
          have stands : entriesOf (.map (entry :: entries))
              = (field.1, entry.2) :: entriesOf (.map entries) := by
            simp [entriesOf, first.1, Except.toOption]
          rw [stands]
          exact .cons ⟨rfl, first.2⟩ ih
  | null =>
      cases h
      exact .nil
  | bool | num | str | seq | tagged => cases h

theorem path_of_fields (h : fields node path = .ok f) : f.path = path := by
  cases node with
  | map entries => exact (fieldsOf_fields h).1
  | null =>
      cases h
      rfl
  | bool | num | str | seq | tagged => cases h

theorem map_get?_of_related {node : Node} {fs : List (String × Inside node)} {entries : Keyed Node}
    (h : Keyed.Related (fun (field : Inside node) v => field.1 = v) fs entries) (key : String)
    : (Keyed.get? fs key).map (·.1) = Keyed.get? entries key := by
  have found := h.get? key
  revert found
  cases Keyed.get? fs key <;> cases Keyed.get? entries key <;> intro found <;> cases found
  · rfl
  · rename_i same
    exact congrArg some same

/-- A field is the first entry of its key. -/
theorem first?_of_fields (h : fields node path = .ok f) (key : String)
    : (f.get? key).map (·.1) = first? node key :=
  map_get?_of_related (related_of_fields h) key

/-- The fields of a mapping end with the last entry of each key. -/
theorem last?_of_fields (h : fields node path = .ok f) (key : String)
    : (Keyed.get? f.entries.reverse key).map (·.1) = last? node key :=
  map_get?_of_related (List.rel_reverse (related_of_fields h)) key

/-- The keys that are left over do not depend on what has been read. -/
theorem unknownKeys_of_fields (h : fields node path = .ok f) (known : List String)
    : f.unknownKeys known = unknownKeysOf known node := by
  rw [Fields.unknownKeys, Keyed.keys_foldl_erase, unknownKeysOf, (related_of_fields h).keys]

theorem get?_eq_some_iff_of_forall₂ {r : String → α → Except Error β} {m : Keyed α} {m' : Keyed β}
    (h : List.Forall₂ (fun entry entry' => entry.1 = entry'.1 ∧ r entry.1 entry.2 = .ok entry'.2)
      m m') {key : String} {b : β}
    : Keyed.get? m' key = some b ↔ ∃ a, Keyed.get? m key = some a ∧ r key a = .ok b := by
  induction h with
  | nil => simp
  | @cons entry entry' _ _ first _ ih =>
      obtain ⟨name, a⟩ := entry
      obtain ⟨_, b⟩ := entry'
      obtain ⟨rfl, made⟩ := first
      by_cases same : name = key
      · subst same
        simp [made]
      · simpa [same] using ih

section Collected

variable {wanted : String → Bool} {r : String → Node → String → Except Error α}

/-- All entries whose keys are wanted are read. Of those with one key, the last one is collected. -/
theorem related_of_collect {found : List (String × α)} (ofNode : fields node path = .ok f)
    (h : f.collect wanted (fun key inner path => r key inner.1 path) = .ok found)
    : ∃ pairs, found = Keyed.ofPairs pairs
        ∧ List.Forall₂ (fun (entry : String × Inside node) (pair : String × α) =>
            entry.1 = pair.1 ∧ r entry.1 entry.2.1 (fieldPath path entry.1) = .ok pair.2)
            (f.entries.filter fun entry => wanted entry.1) pairs := by
  rw [Fields.collect, path_of_fields ofNode] at h
  obtain ⟨pairs, made, same⟩ := bind_eq_ok_iff.mp h
  cases same
  refine ⟨pairs, rfl, (forall₂_of_mapM made).imp fun entry pair one => ?_⟩
  obtain ⟨a, result, same⟩ := bind_eq_ok_iff.mp one
  cases same
  exact ⟨rfl, result⟩

theorem mem_ofPairs_iff_of_related {pairs : List (String × α)} (ofNode : fields node path = .ok f)
    (each : List.Forall₂ (fun (entry : String × Inside node) (pair : String × α) =>
      entry.1 = pair.1 ∧ r entry.1 entry.2.1 (fieldPath path entry.1) = .ok pair.2)
      (f.entries.filter fun entry => wanted entry.1) pairs)
    {key : String} (isWanted : wanted key = true) {a : α}
    : (key, a) ∈ Keyed.ofPairs pairs
      ↔ ∃ inner, last? node key = some inner ∧ r key inner (fieldPath path key) = .ok a := by
  have gathered : Gathered pairs (Keyed.ofPairs pairs) := Keyed.sets.gathered pairs
  let reads (key : String) (inner : Inside node) := r key inner.1 (fieldPath path key)
  have read : Keyed.get? pairs.reverse key = some a
      ↔ ∃ field,
          Keyed.get? (f.entries.filter fun entry => wanted entry.1).reverse key = some field
          ∧ reads key field = .ok a :=
    get?_eq_some_iff_of_forall₂ (List.rel_reverse each)
  rw [gathered.mem_iff, ← Keyed.get?_eq_lookup, read, ← List.filter_reverse,
    Keyed.get?_filter isWanted, ← last?_of_fields ofNode]
  constructor
  · rintro ⟨field, there, result⟩
    exact ⟨field.1, Option.map_eq_some_iff.mpr ⟨field, there, rfl⟩, result⟩
  · rintro ⟨_, last, result⟩
    obtain ⟨field, there, rfl⟩ := Option.map_eq_some_iff.mp last
    exact ⟨field, there, result⟩

/-- Of all entries whose keys are wanted, the last one of each key is collected. -/
theorem collect_parts {found : List (String × α)} (ofNode : fields node path = .ok f)
    (h : f.collect wanted (fun key inner path => r key inner.1 path) = .ok found)
    : (∀ key a, (key, a) ∈ found → wanted key = true
        ∧ ∃ inner, last? node key = some inner ∧ r key inner (fieldPath path key) = .ok a)
      ∧ ∀ key inner, wanted key = true → last? node key = some inner
        → ∃ a, (key, a) ∈ found ∧ r key inner (fieldPath path key) = .ok a := by
  have onlyWanted := collect_wanted f wanted found h
  obtain ⟨pairs, rfl, each⟩ := related_of_collect ofNode h
  constructor
  · intro key a member
    have isWanted := onlyWanted _ member
    exact ⟨isWanted, (mem_ofPairs_iff_of_related ofNode each isWanted).mp member⟩
  · intro key inner isWanted last
    obtain ⟨field, there, rfl⟩ :=
      Option.map_eq_some_iff.mp ((last?_of_fields ofNode key).trans last)
    have among : (key, field) ∈ f.entries.filter fun entry => wanted entry.1 :=
      List.mem_filter.mpr ⟨List.mem_reverse.mp (Keyed.mem_of_get? there), isWanted⟩
    obtain ⟨⟨_, a⟩, -, rfl, result⟩ := exists_right_of_forall₂ each among
    exact ⟨a, (mem_ofPairs_iff_of_related ofNode each isWanted).mpr ⟨_, last, result⟩, result⟩

end Collected

end Decode

end Raml
