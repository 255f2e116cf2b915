import Raml.Form.Read
import Raml.Form.Write
import Raml.Proofs.Values

/-! Reading fields of what has been written: each field holds what was written under its key.
-/

namespace Raml.Form

variable {j : Json} {α β : Type}

-----------------------------------------------------------------------------------------
-- What is under a key
-----------------------------------------------------------------------------------------

/-- What members hold under a key. -/
def under (key : String) (members : Members) : List Json :=
  (members.filter (·.1 == key)).map (·.2)

/-- The values of members. -/
def values (members : Members) : List Json := members.map (·.2)

@[simp] theorem under_append (key : String) (a b : Members)
    : under key (a ++ b) = under key a ++ under key b := by
  simp [under]

/-- Members that all have one key. -/
theorem under_of_forall {key : String} {members : Members} (name : String)
    (h : ∀ m ∈ members, m.1 = name)
    : under key members = if name = key then values members else [] := by
  have same : ∀ m ∈ members, (m.1 == key) = decide (name = key) := by
    intro m member
    rw [h m member]
    rfl
  rw [under, List.filter_congr same]
  by_cases here : name = key
  · simp [here, values, List.filter_eq_self.mpr]
  · simp [here]

@[simp] theorem under_optional (key name : String) (value : Option Json)
    : under key (optional name value) = if name = key then values (optional name value) else [] :=
  under_of_forall name (by cases value <;> simp [optional])

@[simp] theorem under_text (key name s : String)
    : under key (text name s) = if name = key then values (text name s) else [] :=
  under_of_forall name (by unfold text; split <;> simp)

@[simp] theorem under_flag (key name : String) (default value : Bool)
    : under key (flag name default value)
      = if name = key then values (flag name default value) else [] :=
  under_of_forall name (by unfold flag; split <;> simp)

@[simp] theorem under_number (key name : String) (default value : Int64)
    : under key (number name default value)
      = if name = key then values (number name default value) else [] :=
  under_of_forall name (by unfold number; split <;> simp)

@[simp] theorem under_list (key name : String) (items : List Json)
    : under key (list name items) = if name = key then values (list name items) else [] :=
  under_of_forall name (by unfold list; split <;> simp)

@[simp] theorem under_map (key name : String) (members : Members)
    : under key (map name members) = if name = key then values (map name members) else [] :=
  under_of_forall name (by unfold map; split <;> simp)

@[simp] theorem under_texts (key name : String) (items : List String)
    : under key (texts name items) = if name = key then values (texts name items) else [] :=
  under_list key name _

@[simp] theorem under_cons (key name : String) (inner : Json) (members : Members)
    : under key ((name, inner) :: members)
      = (if name = key then [inner] else []) ++ under key members := by
  by_cases h : name = key <;> simp [under, h]

@[simp] theorem under_unless (key name : String) (c : Prop) [Decidable c] (inner : Json)
    : under key (if c then [] else [(name, inner)])
      = if name = key then values (if c then [] else [(name, inner)]) else [] :=
  under_of_forall name (by split <;> simp)

-----------------------------------------------------------------------------------------
-- Fields
-----------------------------------------------------------------------------------------

namespace Fields

/-- What fields hold under a key. -/
def held (f : Fields j) (key : String) : List Json :=
  Form.under key (f.members.map fun (name, x) => (name, x.1))

/-- A field is read if its key stands once or not at all. -/
theorem get?_eq (f : Fields j) (key : String) (read : Json → Option α) (default : α)
    : f.get? key read default
      = match f.held key with
        | [] => some default
        | [inner] => read inner
        | _ => none := by
  have same : f.held key = (f.members.filter (·.1 == key)).map (·.2.1) := by
    simp [held, Form.under, List.filter_map, Function.comp_def]
  rw [get?, single?, same]
  generalize f.members.filter (·.1 == key) = found
  match found with
  | [] => rfl
  | [(_, inner)] => rfl
  | _ :: _ :: _ => rfl

/-- A value that stands alone under a key is in its field. -/
theorem single?_of_held {f : Fields j} {key : String} {inner : Json} (h : f.held key = [inner])
    : ∃ x, f.single? key = some (some x) ∧ x.1 = inner := by
  have same : f.held key = (f.members.filter (·.1 == key)).map (·.2.1) := by
    simp [held, Form.under, List.filter_map, Function.comp_def]
  rw [same] at h
  unfold single?
  generalize f.members.filter (·.1 == key) = found at h
  match found with
  | [(_, x)] => exact ⟨x, rfl, List.singleton_inj.mp h⟩

end Fields

/-- The fields of an object are its members. -/
theorem exists_fields? (members : Members)
    : ∃ f, fields? (.obj members) = some f ∧ ∀ key, f.held key = under key members := by
  refine ⟨_, rfl, fun key => ?_⟩
  rw [Fields.held, List.map_map]
  exact congrArg (Form.under key) (List.attach_map_subtype_val members)

/-- Objects are not read as lists. -/
theorem fieldsOrItems?_obj (names : List String) (members : Members)
    : fieldsOrItems? names (.obj members) = fields? (.obj members) := rfl

-----------------------------------------------------------------------------------------
-- What fields hold
-----------------------------------------------------------------------------------------

/-- Items that are read one by one. -/
theorem mapM_map {w : α → β} {r : β → Option α} {g : α → α} {l : List α}
    (each : ∀ a ∈ l, r (w a) = some (g a))
    : (l.map w).mapM r = some (l.map g) := by
  induction l with
  | nil => rfl
  | cons a l ih =>
      obtain ⟨first, rest⟩ := List.forall_mem_cons.mp each
      simp [List.mapM_cons, first, ih rest]

/-- If what is written of each item is read as another one, lists are read item by item. -/
theorem readList_arr {w : α → Json} {r : Json → Option α} {g : α → α} {l : List α}
    (each : ∀ a ∈ l, r (w a) = some (g a))
    : readList r (.arr (l.map w)) = some (l.map g) :=
  mapM_map each

/-- Maps are read entry by entry, since no key stands twice. -/
theorem readMap_obj {w : α → Json} {r : Json → Option α} {g : α → α} {entries : Keyed α}
    (unique : entries.keys.Nodup) (each : ∀ entry ∈ entries, r (w entry.2) = some (g entry.2))
    : readMap r (.obj (entries.map fun (key, a) => (key, w a)))
      = some (Keyed.mapValues g entries) := by
  have found := mapM_map (l := entries) (w := fun entry => (entry.1, w entry.2))
    (r := fun entry : String × Json => do some (entry.1, ← r entry.2))
    (g := fun entry => (entry.1, g entry.2)) fun entry member => by simp [each entry member]
  have nodup : (Keyed.keys (Keyed.mapValues g entries)).Nodup := by rwa [Keyed.keys_mapValues]
  have kept := Keyed.ofPairs_of_nodup nodup
  simp only [Keyed.mapValues] at kept
  rw [readMap]
  exact (congrArg (· >>= fun found => some (Keyed.ofPairs found)) found).trans (congrArg some kept)

theorem mapM_comp {γ : Type} (g : α → β) (r : β → Option γ) (l : List α)
    : (l.mapM fun a => r (g a)) = (l.map g).mapM r := by
  induction l with
  | nil => rfl
  | cons a l ih => simp [List.mapM_cons, ih]

/-- That a member is part of its object does not matter to what is read of it. -/
theorem mapM_erase {r : String × Json → Option β} (members : Members)
    : ((members.attach.map fun ⟨(key, inner), h⟩ =>
        (key, (⟨inner, sizeOf_lt_of_member h⟩ : Inside (.obj members)))).mapM
          fun entry => r (entry.1, entry.2.1))
      = members.mapM r := by
  rw [mapM_comp (fun entry : String × Inside (.obj members) => (entry.1, entry.2.1)) r,
    List.map_map]
  exact congrArg (List.mapM r) (List.attach_map_subtype_val members)

/-- That items are known to be smaller than their list makes no difference to reading them. -/
theorem mapM_eraseItems {r : Json → Option β} (l : List Json)
    : ((l.attach.map fun ⟨inner, h⟩ =>
        (⟨inner, sizeOf_lt_of_item h⟩ : Inside (.arr l))).mapM fun x => r x.1)
      = l.mapM r := by
  rw [mapM_comp (fun x : Inside (.arr l) => x.1) r, List.map_map]
  exact congrArg (List.mapM r) (List.attach_map_subtype_val l)

/-- Items that are read, if at all, as what `g` says. -/
theorem mapM_yields {w : α → β} {r : β → Option α} {g : α → α} {l as : List α}
    (each : ∀ a ∈ l, ∀ b, r (w a) = some b → b = g a)
    (ok : (l.map w).mapM r = some as)
    : as = l.map g := by
  induction l generalizing as with
  | nil =>
      cases ok
      rfl
  | cons a l ih =>
      obtain ⟨first, rest⟩ := List.forall_mem_cons.mp each
      rw [List.map_cons, List.mapM_cons] at ok
      obtain ⟨b, r, ok⟩ := Option.bind_eq_some_iff.mp ok
      obtain ⟨bs, others, ok⟩ := Option.bind_eq_some_iff.mp ok
      cases ok
      rw [List.map_cons, first b r, ih rest others]

/-- If items are read at all, and only as what they were written from, so are maps. -/
theorem readMap_yields {r : Json → Option α} {w : α → Json} {g : α → α}
    {entries as : Keyed α} (unique : entries.keys.Nodup)
    (each : ∀ entry ∈ entries, ∀ a, r (w entry.2) = some a → a = g entry.2)
    (ok : readMap r (.obj (entries.map fun (key, a) => (key, w a))) = some as)
    : as = Keyed.mapValues g entries := by
  obtain ⟨found, all, ok⟩ := Option.bind_eq_some_iff.mp ok
  cases ok
  have same := mapM_yields (l := entries) (w := fun entry => (entry.1, w entry.2))
    (r := fun entry : String × Json => do some (entry.1, ← r entry.2))
    (g := fun entry => (entry.1, g entry.2)) ?_ all
  · have nodup : (Keyed.keys (Keyed.mapValues g entries)).Nodup := by rwa [Keyed.keys_mapValues]
    rw [same]
    exact Keyed.ofPairs_of_nodup nodup
  · intro entry member b ok
    obtain ⟨a, r, ok⟩ := Option.bind_eq_some_iff.mp ok
    cases ok
    rw [each entry member a r]

namespace Fields

variable {f : Fields j} {key : String}

/-- A text is read back. It is left out if it is empty, which is what is read where there is none.
-/
theorem text?_eq {s : String} (h : f.held key = values (text key s)) : f.text? key = some s := by
  rw [text?, get?_eq, h]
  by_cases empty : s.isEmpty
  · simp [text, values, String.isEmpty_iff.mp empty]
  · simp [text, values, empty, readText]

/-- A flag is read back. It is left out if it is as by default, which is what is read then. -/
theorem flag?_eq {default b : Bool} (h : f.held key = values (flag key default b))
    : f.flag? key default = some b := by
  rw [flag?, get?_eq, h]
  by_cases same : b = default
  · simp [flag, values, same]
  · simp [flag, values, same, readFlag]

/-- A number is read back in the same way. -/
theorem number?_eq {default i : Int64} (h : f.held key = values (number key default i))
    : f.number? key default = some i := by
  rw [number?, get?_eq, h]
  by_cases same : i = default
  · simp [number, values, same]
  · have word : int64? i.toInt = some i := int64?_eq_some_iff.mpr rfl
    simp [number, values, same, readInt64, word]

/-- A fragment is read back unless it is null. -/
theorem fragment?_eq {fragment : Option Fragment}
    (h : f.held key = values (optional key fragment))
    (regular : ∀ j ∈ fragment, ∃ v : Value, v.Regular ∧ v.toJson = j)
    : f.fragment? key = some (Fragment.kept fragment) := by
  rw [fragment?, get?_eq, h]
  cases fragment with
  | none => rfl
  | some inner =>
      obtain ⟨v, solid, rfl⟩ := regular inner rfl
      exact v.readFragment_toJson solid

/-- What is optional is read if it is there, and never written as null. -/
theorem optional?_eq {r : Json → Option α} {w : α → Json} {g : α → α} {found : Option α}
    (h : f.held key = values (optional key (found.map w)))
    (each : ∀ a ∈ found, w a ≠ .null ∧ r (w a) = some (g a))
    : f.get? key (readOptional r) none = some (found.map g) := by
  rw [get?_eq, h]
  cases found with
  | none => rfl
  | some a =>
      obtain ⟨solid, ok⟩ := each a rfl
      show readOptional r (w a) = _
      unfold readOptional
      split
      · next same => exact absurd same solid
      · rw [ok]
        rfl

/-- A list is read back item by item, and as empty where it was left out. -/
theorem list?_eq {r : Json → Option α} {w : α → Json} {g : α → α} {l : List α}
    (h : f.held key = values (list key (l.map w)))
    (each : ∀ a ∈ l, r (w a) = some (g a))
    : f.list? key r = some (l.map g) := by
  rw [list?, get?_eq, h]
  cases l with
  | nil => rfl
  | cons a l => exact readList_arr each

/-- A list whose items are read, if at all, as what `found` says. -/
theorem list?_yields {r : Json → Option α} {l : List Json} {found as : List α}
    (h : f.held key = values (list key l))
    (each : ∀ as, l.mapM r = some as → as = found) (ok : f.list? key r = some as)
    : as = found := by
  rw [list?, get?_eq, h] at ok
  cases l with
  | nil =>
      cases ok
      exact each [] rfl
  | cons a l => exact each as ok

theorem texts?_eq {l : List String} (h : f.held key = values (texts key l))
    : f.list? key readText = some l := by
  simpa using list?_eq (g := id) h fun s _ => rfl

/-- A map is read back entry by entry, and as empty where it was left out. -/
theorem map?_eq {r : Json → Option α} {w : α → Json} {g : α → α} {entries : Keyed α}
    (h : f.held key = values (map key (entries.map fun (name, a) => (name, w a))))
    (unique : entries.keys.Nodup) (each : ∀ entry ∈ entries, r (w entry.2) = some (g entry.2))
    : f.map? key r = some (Keyed.mapValues g entries) := by
  rw [map?, get?_eq, h]
  cases entries with
  | nil => rfl
  | cons entry entries => exact readMap_obj unique each

/-- A table whose values are read, if at all, as what `g` says. -/
theorem map?_yields {r : Json → Option α} {w : α → Json} {g : α → α} {entries as : Keyed α}
    (h : f.held key = values (map key (entries.map fun (name, a) => (name, w a))))
    (unique : entries.keys.Nodup)
    (each : ∀ entry ∈ entries, ∀ a, r (w entry.2) = some a → a = g entry.2)
    (ok : f.map? key r = some as)
    : as = Keyed.mapValues g entries := by
  rw [map?, get?_eq, h] at ok
  cases entries with
  | nil =>
      cases ok
      rfl
  | cons entry entries => exact readMap_yields unique each ok

/-- Objects inside an object are read like others. -/
theorem each?_eq (f : Fields j) (key : String) (r : Json → Option α)
    : (f.each? key fun inner => r inner.1) = f.map? key r := by
  rw [each?, map?, get?]
  cases f.single? key with
  | none => rfl
  | some found =>
      cases found with
      | none => rfl
      | some inner =>
          obtain ⟨inner, smaller⟩ := inner
          cases inner with
          | obj members =>
              have same := mapM_erase (r := fun entry : String × Json => do
                some (entry.1, ← r entry.2)) members
              exact congrArg (· >>= fun members => some (Keyed.ofPairs members)) same
          | _ => rfl

/-- Items of a list inside an object are read like others. -/
theorem eachItem?_eq (f : Fields j) (key : String) (r : Json → Option α)
    : (f.eachItem? key fun inner => r inner.1) = f.list? key r := by
  rw [eachItem?, list?, get?]
  cases f.single? key with
  | none => rfl
  | some found =>
      cases found with
      | none => rfl
      | some inner =>
          obtain ⟨inner, smaller⟩ := inner
          cases inner with
          | arr l => exact mapM_eraseItems l
          | _ => rfl

end Fields

end Raml.Form
