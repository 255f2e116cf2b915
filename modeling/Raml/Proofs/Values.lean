import Raml.Decode.Value
import Raml.Form.Read
import Raml.Proofs.Json.Spelling
import Raml.Proofs.Outcomes

/-! Values that are written and read.

A value that comes back is written as the first one was. That it comes back at all takes objects
without keys that stand twice, as all values in documents are.
-/

namespace Raml

open Json

/-- Null is read as nothing. -/
def Fragment.kept (f : Option Fragment) : Option Fragment :=
  f.bind fun
    | .null => none
    | j => some j

namespace Value

/-- The value that is read where one was written. -/
def reread (v : Value) : Value := .ofJson v.toJson

/-- The same, where null is read as nothing. -/
def reread? (v : Value) : Option Value :=
  match v.toJson with
  | .null => none
  | j => some (.ofJson j)

/-- In no object a key stands twice. -/
def Regular (v : Value) : Prop := v.toJson.collapse = v.toJson

theorem toJsonItems_eq (vs : List Value) : toJsonItems vs = vs.map toJson := by
  induction vs with
  | nil => rfl
  | cons v vs ih => simp [toJsonItems, ih]

theorem toJsonMembers_eq (ms : List (String × Value))
    : toJsonMembers ms = Keyed.mapValues toJson ms := by
  induction ms with
  | nil => rfl
  | cons m ms ih => simp [toJsonMembers, ih, Keyed.mapValues]

-----------------------------------------------------------------------------------------
-- What is written
-----------------------------------------------------------------------------------------

mutual

/-- What is written of a value is written of the value that is read there. -/
theorem toJson_reread : ∀ v : Value, v.reread.toJson = v.toJson
  | .null | .boolean _ | .string _ | .binary _ => rfl
  | .integer i => by
      have word : int64? i.toInt = some i := int64?_eq_some_iff.mpr rfl
      simp [reread, toJson, ofJson, ofInt, word]
  | .number x => by
      by_cases finite : x.isFinite <;> simp [reread, toJson, ofJson, finite]
  | .array items => congrArg Json.arr (toJsonItems_reread items)
  | .object members => congrArg Json.obj (toJsonMembers_reread members)

/-- Items are written as they were, by induction together with values. -/
theorem toJsonItems_reread
    : ∀ vs : List Value, toJsonItems (ofJsonItems (toJsonItems vs)) = toJsonItems vs
  | [] => rfl
  | v :: vs => by
      have first := toJson_reread v
      have rest := toJsonItems_reread vs
      rw [reread] at first
      simp only [toJsonItems, ofJsonItems, first, rest]

/-- Members are written as they were, by induction together with values. -/
theorem toJsonMembers_reread
    : ∀ ms : List (String × Value), toJsonMembers (ofJsonMembers (toJsonMembers ms))
      = toJsonMembers ms
  | [] => rfl
  | (key, v) :: ms => by
      have first := toJson_reread v
      have rest := toJsonMembers_reread ms
      rw [reread] at first
      simp only [toJsonMembers, ofJsonMembers, first, rest]

end

/-- What is written as null is read as nothing. -/
theorem reread?_of_null {v : Value} (h : v.toJson = .null) : v.reread? = none := by
  simp [reread?, h]

/-- What is not written as null is read. -/
theorem reread?_of_ne_null {v : Value} (h : v.toJson ≠ .null) : v.reread? = some v.reread := by
  unfold reread? reread
  cases same : v.toJson <;> simp_all

/-- What is written of a value that is read again is what was written, unless that is null. -/
theorem map_toJson_reread? (v : Value)
    : v.reread?.map toJson = Fragment.kept (some v.toJson) := by
  by_cases null : v.toJson = .null
  · simp [reread?_of_null null, null, Fragment.kept]
  · have kept : Fragment.kept (some v.toJson) = some v.toJson := by
      unfold Fragment.kept
      cases same : v.toJson <;> simp_all
    simp [reread?_of_ne_null null, toJson_reread, kept]

mutual

/-- Whole numbers in values fit into words. -/
theorem isWord_of_mem_wholes : ∀ v : Value, ∀ i ∈ v.toJson.wholes, IsWord i
  | .null | .boolean _ | .string _ | .binary _ => nofun
  | .integer w => by
      intro i member
      rw [List.mem_singleton.mp member]
      exact Or.inl (by rw [int64?_eq_some_iff.mpr rfl]; rfl)
  | .number x => by
      intro i member
      rw [toJson] at member
      split at member <;> cases member
  | .array items => isWord_of_mem_itemWholes items
  | .object members => isWord_of_mem_memberWholes members

/-- Whole numbers in lists are words. -/
theorem isWord_of_mem_itemWholes : ∀ vs : List Value, ∀ i ∈ itemWholes (toJsonItems vs), IsWord i
  | [] => nofun
  | v :: vs => by
      rw [toJsonItems, itemWholes, List.forall_mem_append]
      exact ⟨isWord_of_mem_wholes v, isWord_of_mem_itemWholes vs⟩

theorem isWord_of_mem_memberWholes
    : ∀ ms : List (String × Value), ∀ i ∈ memberWholes (toJsonMembers ms), IsWord i
  | [] => nofun
  | (_, v) :: ms => by
      rw [toJsonMembers, memberWholes, List.forall_mem_append]
      exact ⟨isWord_of_mem_wholes v, isWord_of_mem_memberWholes ms⟩

end

-----------------------------------------------------------------------------------------
-- Objects without keys that stand twice
-----------------------------------------------------------------------------------------

end Value

namespace Keyed

variable {α : Type}

/-- An entry with a new key comes last. -/
theorem insert_of_not_mem {m : Keyed α} {key : String} (v : α) (h : key ∉ m.keys)
    : m.insert key v = m ++ [(key, v)] := by
  induction m with
  | nil => rfl
  | cons entry m ih =>
      obtain ⟨first, w⟩ := entry
      obtain ⟨other, later⟩ : first ≠ key ∧ key ∉ keys m := by
        simpa [keys, eq_comm] using h
      simp [insert, other, ih later]

/-- Entries whose keys stand once are kept as they are. -/
theorem ofPairs_of_nodup {m : Keyed α} (h : m.keys.Nodup) : ofPairs m = m := by
  suffices all : ∀ done rest : Keyed α, (keys (done ++ rest)).Nodup
      → rest.foldl (fun m entry => m.insert entry.1 entry.2) done = done ++ rest from all [] m h
  intro done rest
  induction rest generalizing done with
  | nil => simp
  | cons entry rest ih =>
      intro unique
      obtain ⟨key, v⟩ := entry
      have new : key ∉ keys done := by
        simp only [keys, List.map_append, List.map_cons] at unique
        have apart := (List.nodup_append.mp unique).2.2
        exact fun member => apart key member key List.mem_cons_self rfl
      have moved : done ++ (key, v) :: rest = (done ++ [(key, v)]) ++ rest := by simp
      simp only [List.foldl_cons, insert_of_not_mem v new]
      rw [moved]
      exact ih _ (moved ▸ unique)

end Keyed

namespace Json

theorem collapseItems_eq (js : List Json) : collapseItems js = js.map collapse := by
  induction js with
  | nil => rfl
  | cons j js ih => simp [collapseItems, ih]

theorem collapseMembers_eq (ms : List (String × Json))
    : collapseMembers ms = Keyed.mapValues collapse ms := by
  induction ms with
  | nil => rfl
  | cons m ms ih => simp [collapseMembers, ih, Keyed.mapValues]

end Json

namespace Value

@[simp] theorem regular_null : Regular .null := rfl

@[simp] theorem regular_boolean (b : Bool) : Regular (.boolean b) := rfl

@[simp] theorem regular_integer (i : Int64) : Regular (.integer i) := rfl

@[simp] theorem regular_number (x : Float) : Regular (.number x) := by
  unfold Regular
  by_cases finite : x.isFinite <;> simp [toJson, finite, collapse]

@[simp] theorem regular_string (s : String) : Regular (.string s) := rfl

@[simp] theorem regular_binary (bytes : Bytes) : Regular (.binary bytes) := rfl

/-- Whole numbers are regular, be they words or not. -/
theorem regular_ofInt (i : Int) : Regular (ofInt i) := by
  unfold ofInt
  split <;> simp

/-- A list is regular if its items are. -/
theorem regular_array_iff {vs : List Value} : Regular (.array vs) ↔ ∀ v ∈ vs, v.Regular := by
  simp only [Regular, toJson, collapse, Json.arr.injEq, toJsonItems_eq, collapseItems_eq,
    List.map_map, List.map_inj_left, Function.comp_apply]

/-- An object is regular if its members are, and no key stands twice. -/
theorem regular_object {ms : List (String × Value)} (unique : (Keyed.keys ms).Nodup)
    (each : ∀ m ∈ ms, m.2.Regular)
    : Regular (.object ms) := by
  have same : Keyed.mapValues collapse (Keyed.mapValues toJson ms) = Keyed.mapValues toJson ms := by
    simp only [Keyed.mapValues, List.map_map, List.map_inj_left, Function.comp_apply,
      Prod.mk.injEq, true_and]
    exact each
  have nodup : (Keyed.keys (Keyed.mapValues toJson ms)).Nodup := by
    rwa [Keyed.keys_mapValues]
  rw [Regular, toJson, collapse, toJsonMembers_eq, collapseMembers_eq, same,
    Keyed.ofPairs_of_nodup nodup]

mutual

/-- Of entries with one key the last one counts, so no key stands twice in the value of a node. -/
theorem regular_ofNode : ∀ node : Yaml.Node, Yields (ofNode node) Regular
  | .null => Yields.ok regular_null
  | .bool b => Yields.ok (regular_boolean b)
  | .num (.int i) => Yields.ok (regular_ofInt i)
  | .num (.float x) => Yields.ok (regular_number x)
  | .str s => Yields.ok (regular_string s)
  | .seq items => by
      rw [ofNode]
      exact Yields.map fun vs read => regular_array_iff.mpr (regular_ofItems items vs read)
  | .map entries => by
      rw [ofNode]
      refine Yields.map fun members read => ?_
      refine regular_object (Keyed.nodup_ofPairs members) fun m member => ?_
      exact regular_ofEntries entries members read m (Keyed.mem_of_mem_ofPairs member)
  | .tagged _ content => by
      rw [ofNode]
      exact regular_ofNode content

/-- Items that are read are regular, by induction together with nodes. -/
theorem regular_ofItems
    : ∀ items : List Yaml.Node, Yields (ofItems items) fun vs => ∀ v ∈ vs, v.Regular
  | [] => Yields.ok nofun
  | item :: items => by
      rw [ofItems]
      refine Yields.bind (regular_ofNode item) fun v first => ?_
      refine Yields.bind (regular_ofItems items) fun vs rest => Yields.ok ?_
      exact List.forall_mem_cons.mpr ⟨first, rest⟩

theorem regular_ofEntries
    : ∀ entries : List (Yaml.Node × Yaml.Node),
      Yields (ofEntries entries) fun members => ∀ m ∈ members, m.2.Regular
  | [] => Yields.ok nofun
  | (key, node) :: entries => by
      rw [ofEntries]
      refine Yields.skip fun key => Yields.bind (regular_ofNode node) fun v first => ?_
      refine Yields.bind (regular_ofEntries entries) fun members rest => Yields.ok ?_
      exact List.forall_mem_cons.mpr ⟨first, rest⟩

end

-----------------------------------------------------------------------------------------
-- What is read
-----------------------------------------------------------------------------------------

variable {v : Value}

/-- A regular value is read where it was written. -/
theorem read_toJson (h : v.Regular) : read v.toJson = some v.reread := by
  rw [read, h, reread]

/-- The same, where null is read as nothing. -/
theorem readOptional_toJson (h : v.Regular)
    : Form.readOptional read v.toJson = some v.reread? := by
  by_cases null : v.toJson = .null
  · rw [null, Form.readOptional, reread?_of_null null]
  · have read := read_toJson h
    rw [reread?_of_ne_null null]
    unfold Form.readOptional
    split
    · next same => exact absurd same null
    · rw [read]
      rfl

/-- What is read as a fragment is kept as it was written. -/
theorem readFragment_toJson (h : v.Regular)
    : Form.readOptional Form.readFragment v.toJson = some (Fragment.kept (some v.toJson)) := by
  unfold Form.readOptional Form.readFragment Fragment.kept
  split
  · next same => rw [same]; rfl
  · rw [h]
    cases same : v.toJson <;> simp_all

end Value

end Raml
