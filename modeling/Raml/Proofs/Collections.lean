import Raml.Decode.Documents
import Raml.Proofs.Tables
import Raml.Proofs.Values
import Mathlib.Data.List.Induction
import Mathlib.Data.List.Nodup

/-! What a mapping leaves in the collection that it is decoded into.

Keys that differ in a document may be one once they are texts, or statuses: the number and the
string `1`, a status with and without a sign. Nothing is said against them, and of the entries of
one key only the last is decoded, at the place of the first. A collection has an entry for each
entry of its mapping where no two keys become one, and nowhere else.
-/

namespace Raml

open Yaml (Node)

-----------------------------------------------------------------------------------------
-- Every item once
-----------------------------------------------------------------------------------------

/-- A list is decoded if each item is, in order. -/
theorem mapM_eq_ok_iff {α β : Type} {f : α → Except Error β} {as : List α} {bs : List β}
    : as.mapM f = .ok bs ↔ List.Forall₂ (fun a b => f a = .ok b) as bs := by
  refine ⟨forall₂_of_mapM, fun h => ?_⟩
  induction h with
  | nil => rfl
  | cons first _ ih =>
      rw [List.mapM_cons, bind_eq_ok_iff]
      exact ⟨_, first, bind_eq_ok_iff.mpr ⟨_, ih, rfl⟩⟩

/-- A sequence that never stops has a result. -/
theorem exists_bind {α β : Type} {x : Except Error α} {f : α → Except Error β}
    (first : ∃ a, x = .ok a) (rest : ∀ a, ∃ b, f a = .ok b)
    : ∃ b, x >>= f = .ok b := by
  obtain ⟨a, rfl⟩ := first
  exact rest a

theorem exists_mapM {α β : Type} {f : α → Except Error β} {as : List α}
    (each : ∀ a ∈ as, ∃ b, f a = .ok b)
    : ∃ bs, as.mapM f = .ok bs := by
  induction as with
  | nil => exact ⟨[], rfl⟩
  | cons a as ih =>
      obtain ⟨first, rest⟩ := List.forall_mem_cons.mp each
      rw [List.mapM_cons]
      exact exists_bind first fun b => exists_bind (ih rest) fun bs => ⟨_, rfl⟩

section Firsts

variable {κ : Type} [DecidableEq κ] {keys : List κ} {key : κ}

/-- A key that is added is new, or it is there already and changes nothing. -/
theorem eraseDups_concat (keys : List κ) (key : κ)
    : (keys ++ [key]).eraseDups
        = if key ∈ keys then keys.eraseDups else keys.eraseDups ++ [key] := by
  rw [List.eraseDups_append]
  by_cases earlier : key ∈ keys <;> simp [List.removeAll, earlier, List.eraseDups_cons]

theorem eraseDups_sublist (keys : List κ) : keys.eraseDups.Sublist keys := by
  induction keys using List.reverseRecOn with
  | nil => exact List.Sublist.refl _
  | append_singleton keys key ih =>
      rw [eraseDups_concat]
      split
      · exact ih.trans (List.sublist_append_left _ _)
      · exact ih.append_right _

theorem nodup_eraseDups (keys : List κ) : keys.eraseDups.Nodup := by
  induction keys using List.reverseRecOn with
  | nil => exact List.nodup_nil
  | append_singleton keys key ih =>
      rw [eraseDups_concat]
      split
      · exact ih
      · rename_i new
        refine List.nodup_append.mpr ⟨ih, List.pairwise_singleton _ _, ?_⟩
        rintro other member _ last rfl
        cases List.mem_singleton.mp last
        exact new (List.mem_eraseDups.mp member)

theorem eraseDups_of_nodup (unique : keys.Nodup) : keys.eraseDups = keys := by
  induction keys using List.reverseRecOn with
  | nil => rfl
  | append_singleton keys key ih =>
      obtain ⟨before, -, apart⟩ := List.nodup_append.mp unique
      have new : key ∉ keys := fun member => apart key member key (List.mem_singleton_self _) rfl
      rw [eraseDups_concat, if_neg new, ih before]

/-- Keys get fewer exactly if one stands twice. -/
theorem length_eraseDups_lt_iff : keys.eraseDups.length < keys.length ↔ ¬ keys.Nodup := by
  refine ⟨fun shorter unique => ?_, fun twice => ?_⟩
  · rw [eraseDups_of_nodup unique] at shorter
    exact Nat.lt_irrefl _ shorter
  · refine Nat.lt_of_le_of_ne (eraseDups_sublist keys).length_le fun same => twice ?_
    exact (eraseDups_sublist keys).eq_of_length same ▸ nodup_eraseDups keys

end Firsts

-----------------------------------------------------------------------------------------
-- Pairs that are gathered by their keys
-----------------------------------------------------------------------------------------

section Gathering

variable {κ α β : Type} [DecidableEq κ] {pairs found found' : List (κ × α)}

/-- Pairs gathered by their keys: every key once, in the order in which keys come first, and with
it the value that comes last. -/
structure Gathered (pairs found : List (κ × α)) : Prop where
  keys : found.map Prod.fst = (pairs.map Prod.fst).eraseDups
  last : ∀ entry ∈ found, pairs.reverse.lookup entry.1 = some entry.2

namespace Gathered

/-- Gathered pairs have each key once. -/
theorem nodup (h : Gathered pairs found) : (found.map Prod.fst).Nodup :=
  h.keys ▸ nodup_eraseDups _

/-- Pairs are gathered in one way. -/
theorem unique (h : Gathered pairs found) (h' : Gathered pairs found') : found = found' := by
  have keys : found.map Prod.fst = found'.map Prod.fst := h.keys.trans h'.keys.symm
  have values : ∀ entry ∈ found, ∀ entry' ∈ found', entry.1 = entry'.1 → entry = entry' := by
    intro entry member entry' member' same
    have last := h.last entry member
    rw [same, h'.last entry' member', Option.some.injEq] at last
    exact Prod.ext same last.symm
  clear h h'
  induction found generalizing found' with
  | nil => exact (List.map_eq_nil_iff.mp keys.symm).symm
  | cons entry found ih =>
      cases found' with
      | nil => cases keys
      | cons entry' found' =>
          obtain ⟨same, rest⟩ := List.cons.inj keys
          rw [values entry List.mem_cons_self entry' List.mem_cons_self same]
          refine congrArg _ (ih rest fun e member e' member' => ?_)
          exact values e (List.mem_cons_of_mem _ member) e' (List.mem_cons_of_mem _ member')

/-- Where no key stands twice, pairs are gathered as they are. -/
theorem of_nodup (unique : (pairs.map Prod.fst).Nodup) : Gathered pairs pairs := by
  refine ⟨(eraseDups_of_nodup unique).symm, fun entry member => ?_⟩
  obtain ⟨before, after, rfl⟩ := List.append_of_mem member
  refine List.lookup_eq_some_iff.mpr ⟨after.reverse, before.reverse, by simp, fun other later => ?_⟩
  rw [List.map_append, List.map_cons] at unique
  obtain ⟨new, -⟩ := List.nodup_cons.mp (List.nodup_append.mp unique).2.1
  have apart : other.1 ∈ after.map Prod.fst := List.mem_map_of_mem (List.mem_reverse.mp later)
  exact bne_iff_ne.mpr fun same => new (same ▸ apart)

/-- Values may be looked at after the pairs are gathered. -/
theorem map (g : α → β) (h : Gathered pairs found)
    : Gathered (pairs.map fun entry => (entry.1, g entry.2))
        (found.map fun entry => (entry.1, g entry.2)) := by
  let mapped (entry : κ × α) : κ × β := (entry.1, g entry.2)
  refine ⟨by simpa [Function.comp_def] using h.keys, fun entry member => ?_⟩
  obtain ⟨entry, earlier, rfl⟩ := List.mem_map.mp member
  obtain ⟨after, before, cut, apart⟩ := List.lookup_eq_some_iff.mp (h.last entry earlier)
  refine List.lookup_eq_some_iff.mpr ⟨after.map mapped, before.map mapped, ?_, ?_⟩
  · simpa [mapped] using congrArg (List.map mapped) cut
  · intro other later
    obtain ⟨other, within, rfl⟩ := List.mem_map.mp later
    exact apart other within

end Gathered

/-- A table whose values are set by their keys: in place under a key that is there, else at the
end. -/
structure Sets (set : List (κ × α) → κ → α → List (κ × α)) : Prop where
  nil : ∀ key v, set [] key v = [(key, v)]
  cons : ∀ k w found key v,
    set ((k, w) :: found) key v = if k = key then (k, v) :: found else (k, w) :: set found key v

namespace Sets

variable {set : List (κ × α) → κ → α → List (κ × α)}

/-- A value that is set leaves the keys as they are, or adds its own one at the end. -/
theorem keys (sets : Sets set) (found : List (κ × α)) (key : κ) (v : α)
    : (set found key v).map Prod.fst = if key ∈ found.map Prod.fst then found.map Prod.fst
        else found.map Prod.fst ++ [key] := by
  induction found with
  | nil => simp [sets.nil]
  | cons entry found ih =>
      obtain ⟨k, w⟩ := entry
      by_cases same : k = key
      · simp [sets.cons, same]
      · rw [sets.cons, if_neg same, List.map_cons, ih]
        by_cases later : key ∈ found.map Prod.fst <;> simp [later, Ne.symm same]

/-- After a value is set, it is there, and all entries under other keys are. -/
theorem mem (sets : Sets set) {found : List (κ × α)} (unique : (found.map Prod.fst).Nodup)
    {key : κ} {v : α} {entry : κ × α} (h : entry ∈ set found key v)
    : entry = (key, v) ∨ entry ∈ found ∧ entry.1 ≠ key := by
  induction found with
  | nil => exact .inl (List.mem_singleton.mp (sets.nil key v ▸ h))
  | cons first found ih =>
      obtain ⟨k, w⟩ := first
      obtain ⟨new, rest⟩ := List.nodup_cons.mp unique
      rw [sets.cons] at h
      split at h
      · rename_i same
        rcases List.mem_cons.mp h with rfl | later
        · exact .inl (by rw [same])
        · refine .inr ⟨List.mem_cons_of_mem _ later, ?_⟩
          intro also
          exact new (List.mem_map.mpr ⟨entry, later, also.trans same.symm⟩)
      · rename_i apart
        rcases List.mem_cons.mp h with rfl | later
        · exact .inr ⟨List.mem_cons_self, apart⟩
        · exact (ih rest later).imp_right (And.imp_left (List.mem_cons_of_mem _))

/-- Setting the values of pairs one after the other gathers the pairs: by induction from the last
pair back. -/
theorem gathered (sets : Sets set) (pairs : List (κ × α))
    : Gathered pairs (pairs.foldl (fun found entry => set found entry.1 entry.2) []) := by
  induction pairs using List.reverseRecOn with
  | nil => exact ⟨rfl, nofun⟩
  | append_singleton pairs pair ih =>
      rw [List.foldl_concat]
      constructor
      · rw [sets.keys, ih.keys, List.map_append, List.map_singleton, eraseDups_concat]
        simp only [List.mem_eraseDups]
      · intro entry member
        rw [List.reverse_concat, List.lookup_cons]
        rcases sets.mem ih.nodup member with rfl | ⟨earlier, apart⟩
        · simp
        · rw [beq_false_of_ne apart]
          exact ih.last entry earlier

/-- Setting values one after the other gathers them, by induction from the end. -/
theorem gathered_iff (sets : Sets set)
    : Gathered pairs found
        ↔ found = pairs.foldl (fun found entry => set found entry.1 entry.2) [] := by
  refine ⟨fun h => h.unique (sets.gathered pairs), ?_⟩
  rintro rfl
  exact sets.gathered pairs

end Sets

theorem Keyed.sets : Sets (Keyed.insert (α := α)) := ⟨fun _ _ => rfl, fun _ _ _ _ _ => rfl⟩

/-- Responses are set by their status as other values are by their keys. -/
theorem Responses.sets : Sets Responses.insert := ⟨fun _ _ => rfl, fun _ _ _ _ _ => rfl⟩

end Gathering

-----------------------------------------------------------------------------------------
-- The entries of a mapping
-----------------------------------------------------------------------------------------

namespace Decode

variable {κ α : Type} {convert : String → Option κ} {read : String → Node → Except Error α}
  {entries : List (Node × Node)} {pairs found : List (κ × α)}

/-- What an entry of a mapping is decoded into: its key, converted from a text, and what is read
under it. -/
def Stands (convert : String → Option κ) (read : String → Node → Except Error α)
    (entry : Node × Node) (pair : κ × α) : Prop :=
  ∃ text, entry.1.keyText = .ok text ∧ convert text = some pair.1 ∧ read text entry.2 = .ok pair.2

/-- The key that a node is converted into. -/
def key? (convert : String → Option κ) (node : Node) : Option κ :=
  node.keyText.toOption.bind convert

/-- A collection of what each entry of a mapping is decoded into. -/
def Collected [DecidableEq κ] (convert : String → Option κ) (read : String → Node → Except Error α)
    (entries : List (Node × Node)) (found : List (κ × α)) : Prop :=
  ∃ pairs, List.Forall₂ (Stands convert read) entries pairs ∧ Gathered pairs found

/-- Keys are converted entry by entry. -/
theorem keys_of_stands (h : List.Forall₂ (Stands convert read) entries pairs)
    : entries.map (fun entry => key? convert entry.1) = pairs.map fun pair => some pair.1 := by
  induction h with
  | nil => rfl
  | cons first _ ih =>
      obtain ⟨text, ofKey, converted, -⟩ := first
      rw [List.map_cons, List.map_cons, ih, key?, ofKey]
      exact congrArg (· :: _) converted

/-- So two keys become one among the nodes exactly if they do among the pairs. -/
theorem nodup_of_stands (h : List.Forall₂ (Stands convert read) entries pairs)
    : (entries.map fun entry => key? convert entry.1).Nodup ↔ (pairs.map Prod.fst).Nodup := by
  rw [keys_of_stands h]
  have : (pairs.map fun pair => some pair.1) = (pairs.map Prod.fst).map some := by simp
  rw [this, List.nodup_map_iff fun _ _ => Option.some.inj]

namespace Collected

variable [DecidableEq κ]

/-- Each entry of a mapping has its own entry in the collection, in order, exactly if no two keys
are converted into one. -/
theorem whole_iff (h : Collected convert read entries found)
    : List.Forall₂ (Stands convert read) entries found
        ↔ (entries.map fun entry => key? convert entry.1).Nodup := by
  obtain ⟨pairs, stands, gathered⟩ := h
  refine ⟨fun whole => (nodup_of_stands whole).mpr gathered.nodup, fun apart => ?_⟩
  rw [gathered.unique (.of_nodup ((nodup_of_stands stands).mp apart))]
  exact stands

/-- Where two keys are converted into one, entries are lost. -/
theorem length_lt_iff (h : Collected convert read entries found)
    : found.length < entries.length
        ↔ ¬ (entries.map fun entry => key? convert entry.1).Nodup := by
  obtain ⟨pairs, stands, gathered⟩ := h
  have length : found.length = (pairs.map Prod.fst).eraseDups.length := by
    rw [← gathered.keys, List.length_map]
  rw [nodup_of_stands stands, ← length_eraseDups_lt_iff, length, stands.length_eq, List.length_map]

end Collected

/-- A field that an entry of a mapping is. -/
def FieldOf {node : Node} (entry : Node × Node) (field : String × Inside node) : Prop :=
  entry.1.keyText = .ok field.1 ∧ field.2.1 = entry.2

/-- The fields of a mapping are its entries by the texts of their keys. -/
theorem fieldsOf_fields {path : String} {f : Fields (.map entries)}
    (h : fields (.map entries) path = .ok f)
    : f.path = path ∧ List.Forall₂ FieldOf entries f.entries := by
  rw [fields, bind_eq_ok_iff] at h
  obtain ⟨fs, read, same⟩ := h
  cases same
  have all : List.Forall₂ (fun entry field => FieldOf entry.1 field) entries.attach fs := by
    refine (forall₂_of_mapM read).imp fun entry field made => ?_
    obtain ⟨text, ofKey, same⟩ := bind_eq_ok_iff.mp made
    cases same
    exact ⟨ofKey, rfl⟩
  rw [← List.forall₂_map_left_iff, List.attach_map_subtype_val] at all
  exact ⟨rfl, all⟩

/-- A mapping has fields where its keys are texts. -/
theorem exists_fields (path : String)
    (texts : ∀ entry ∈ entries, ∃ text, entry.1.keyText = .ok text)
    : ∃ f, fields (.map entries) path = .ok f := by
  rw [fields]
  refine exists_bind (exists_mapM fun entry _ => ?_) fun fs => ⟨_, rfl⟩
  obtain ⟨⟨key, inner⟩, member⟩ := entry
  obtain ⟨text, ofKey⟩ := texts _ member
  exact ⟨_, bind_eq_ok_iff.mpr ⟨text, ofKey, rfl⟩⟩

/-- What a field is decoded into. -/
def FieldStands {node : Node} (convert : String → Option κ) (read : String → Node → Except Error α)
    (field : String × Inside node) (pair : κ × α) : Prop :=
  convert field.1 = some pair.1 ∧ read field.1 field.2.1 = .ok pair.2

/-- It is the same to decode the entries of a mapping and the fields that are made of them. -/
theorem fieldStands_iff {node : Node} {fs : List (String × Inside node)}
    (h : List.Forall₂ FieldOf entries fs)
    : List.Forall₂ (FieldStands convert read) fs pairs
        ↔ List.Forall₂ (Stands convert read) entries pairs := by
  constructor
  · intro stands
    refine forall₂_trans_of_mem h stands fun entry _ field pair ofEntry stands => ?_
    exact ⟨field.1, ofEntry.1, stands.1, ofEntry.2 ▸ stands.2⟩
  · intro stands
    refine forall₂_trans_of_mem h.flip stands fun field _ entry pair ofEntry stands => ?_
    obtain ⟨text, ofKey, converted, result⟩ := stands
    cases ofEntry.1.symm.trans ofKey
    exact ⟨converted, ofEntry.2 ▸ result⟩

/-- A decoder of the fields of a mapping that gathers what it decodes collects the entries of the
mapping. -/
theorem collected_of_fields [DecidableEq κ] {path : String}
    {decode : Fields (.map entries) → Except Error (List (κ × α))}
    (gathers : ∀ f, fields (.map entries) path = .ok f → (decode f = .ok found
      ↔ ∃ pairs, List.Forall₂ (FieldStands convert read) f.entries pairs ∧ Gathered pairs found))
    : (do decode (← fields (.map entries) path)) = .ok found
        ↔ Collected convert read entries found := by
  rw [bind_eq_ok_iff]
  constructor
  · rintro ⟨f, ofNode, decoded⟩
    obtain ⟨pairs, stands, gathered⟩ := (gathers f ofNode).mp decoded
    exact ⟨pairs, (fieldStands_iff (fieldsOf_fields ofNode).2).mp stands, gathered⟩
  · rintro ⟨pairs, stands, gathered⟩
    have texts : ∀ entry ∈ entries, ∃ text, entry.1.keyText = .ok text := by
      intro entry member
      obtain ⟨pair, -, text, ofKey, -⟩ := exists_right_of_forall₂ stands member
      exact ⟨text, ofKey⟩
    obtain ⟨f, ofNode⟩ := exists_fields path texts
    refine ⟨f, ofNode, (gathers f ofNode).mpr ⟨pairs, ?_, gathered⟩⟩
    exact (fieldStands_iff (fieldsOf_fields ofNode).2).mpr stands

/-- What is collected are the fields, gathered by their keys. -/
theorem collect_iff {node : Node} (f : Fields node) {r : String → Node → String → Except Error α}
    {found : List (String × α)}
    : f.collect (fun _ => true) (fun key inner path => r key inner.1 path) = .ok found
        ↔ ∃ pairs, List.Forall₂ (FieldStands some fun key node => r key node (fieldPath f.path key))
            f.entries pairs ∧ Gathered pairs found := by
  have one : ∀ (field : String × Inside node) (pair : String × α),
      (do return (field.1, ← r field.1 field.2.1 (fieldPath f.path field.1))) = Except.ok pair
        ↔ FieldStands some (fun key node => r key node (fieldPath f.path key)) field pair := by
    rintro field ⟨key, v⟩
    rw [bind_eq_ok_iff]
    simp only [FieldStands, pure_eq_ok, Except.ok.injEq, Prod.mk.injEq, Option.some.injEq,
      exists_eq_right_right]
    grind
  simp only [Fields.collect, List.filter_true, bind_eq_ok_iff, mapM_eq_ok_iff, one,
    Keyed.sets.gathered_iff]
  exact exists_congr fun pairs => and_congr_right fun _ => ⟨by rintro ⟨⟩; rfl, by rintro rfl; rfl⟩

-----------------------------------------------------------------------------------------
-- The decoders of collections
-----------------------------------------------------------------------------------------

/-- So it is for a mapping all of whose entries are decoded alike. -/
theorem each_map_iff {path : String} {r : String → Node → String → Except Error α}
    {found : List (String × α)}
    : each (.map entries) path (fun key inner path => r key inner.1 path) = .ok found
        ↔ Collected some (fun key node => r key node (fieldPath path key)) entries found := by
  refine collected_of_fields fun f ofNode => ?_
  rw [collect_iff, (fieldsOf_fields ofNode).1]

/-- Properties are such a collection. -/
theorem properties_map_iff {path : String} {found : Properties}
    : properties (.map entries) path = .ok found
        ↔ Collected some (fun name node => property name node (fieldPath path name))
            entries found := by
  rw [properties]
  exact each_map_iff

/-- So are the libraries that are used. -/
theorem uses_map_iff {path : String} {found : Uses}
    : uses (.map entries) path = .ok found
        ↔ Collected some (fun key node => use node (fieldPath path key)) entries found := by
  rw [uses]
  exact each_map_iff

/-- A field that holds a mapping. -/
def Holds {node : Node} (f : Fields node) (key : String) (entries : List (Node × Node)) : Prop :=
  ∃ inner, f.get? key = some inner ∧ inner.1 = .map entries

/-- A field that holds a mapping is decoded as the mapping is. -/
theorem orElse_of_holds {node : Node} {f : Fields node} {key : String} {β : Type}
    {r : Node → String → Except Error β} {b found : β} (h : Holds f key entries)
    : f.orElse key r b = .ok found ↔ r (.map entries) (fieldPath f.path key) = .ok found := by
  obtain ⟨inner, there, same⟩ := h
  rw [Fields.orElse, Fields.optional, there, Option.mapM_some, same]
  cases r (.map entries) (fieldPath f.path key) with
  | ok a => exact Iff.rfl
  | error e => exact iff_of_false nofun nofun

/-- Declarations in a field are such a collection. -/
theorem declarations_iff {node : Node} {f : Fields node} {key : String}
    {r : Node → String → Except Error α} {found : List (String × α)} (h : Holds f key entries)
    : declarations f key r = .ok found
        ↔ Collected some (fun name node => r node (fieldPath (fieldPath f.path key) name))
            entries found := by
  rw [declarations, orElse_of_holds h]
  exact each_map_iff (r := fun _ => r)

/-- Responses are put in one by one, which gathers them as well. -/
theorem gathered_foldlM {node : Node} {r : String → Node → Except Error Response}
    {fs : List (String × Inside node)} {found : Responses}
    {one : Responses → String × Inside node → Except Error Responses}
    (step : ∀ found field found', one found field = .ok found' ↔ ∃ pair,
      FieldStands status? r field pair ∧ found' = Responses.insert found pair.1 pair.2)
    : fs.foldlM one [] = .ok found
        ↔ ∃ pairs, List.Forall₂ (FieldStands status? r) fs pairs ∧ Gathered pairs found := by
  suffices from_ : ∀ start, fs.foldlM one start = .ok found
      ↔ ∃ pairs, List.Forall₂ (FieldStands status? r) fs pairs
        ∧ found = pairs.foldl (fun found pair => Responses.insert found pair.1 pair.2) start by
    simp only [from_, Responses.sets.gathered_iff]
  induction fs with
  | nil =>
      intro start
      simp [pure_eq_ok, eq_comm]
  | cons field fs ih =>
      intro start
      rw [List.foldlM_cons, bind_eq_ok_iff]
      constructor
      · rintro ⟨_, first, rest⟩
        obtain ⟨pair, stands, rfl⟩ := (step _ _ _).mp first
        obtain ⟨pairs, others, rfl⟩ := (ih _).mp rest
        exact ⟨pair :: pairs, .cons stands others, rfl⟩
      · rintro ⟨_, stands, same⟩
        cases stands with
        | cons first others =>
            exact ⟨_, (step _ _ _).mpr ⟨_, first, rfl⟩, (ih _).mpr ⟨_, others, same⟩⟩

/-- Responses are a collection whose keys are statuses, however they are spelled. -/
theorem responses_map_iff {path : String} {found : Responses}
    : responses (.map entries) path = .ok found
        ↔ Collected status? (fun code node => response node (fieldPath path code))
            entries found := by
  refine collected_of_fields fun f ofNode => gathered_foldlM fun found field found' => ?_
  obtain ⟨code, inner⟩ := field
  constructor
  · intro inserted
    simp only at inserted
    split at inserted
    · cases inserted
    · rename_i status converted
      obtain ⟨r, read, rfl⟩ := map_eq_ok_iff.mp inserted
      exact ⟨(status, r), ⟨converted, read⟩, rfl⟩
  · rintro ⟨pair, ⟨converted, read⟩, rfl⟩
    simp only [converted]
    exact bind_eq_ok_iff.mpr ⟨pair.2, read, rfl⟩

/-- Bodies are a collection where some key is a media type. -/
theorem bodies_map_iff {path : String} {found : Bodies}
    (media : ∃ entry ∈ entries, ∃ key, entry.1.keyText = .ok key ∧ isMediaType key = true)
    : bodies (.map entries) path = .ok found
        ↔ Collected some (fun key node => typeNode node (fieldPath path key)) entries found := by
  refine collected_of_fields fun f ofNode => ?_
  obtain ⟨own, fieldsOf⟩ := fieldsOf_fields ofNode
  obtain ⟨entry, member, key, ofKey, isMedia⟩ := media
  obtain ⟨field, there, ofEntry⟩ := exists_right_of_forall₂ fieldsOf member
  cases ofKey.symm.trans ofEntry.1
  rw [if_pos (List.any_eq_true.mpr ⟨field, there, isMedia⟩), collect_iff, own]

/-- The members of a value are decoded one by one, and gathered afterwards. -/
theorem ofEntries_iff {members : List (String × Value)}
    : Value.ofEntries entries = .ok members
        ↔ List.Forall₂ (Stands some fun _ node => Value.ofNode node) entries members := by
  induction entries generalizing members with
  | nil => simp [Value.ofEntries, eq_comm]
  | cons entry entries ih =>
      simp only [Value.ofEntries, bind_eq_ok_iff, ih, pure_eq_ok, Except.ok.injEq]
      constructor
      · rintro ⟨text, ofKey, v, read, rest, others, rfl⟩
        exact .cons ⟨text, ofKey, rfl, read⟩ others
      · intro stands
        cases stands with
        | cons first others =>
            obtain ⟨text, ofKey, same, read⟩ := first
            cases same
            exact ⟨_, ofKey, _, read, _, others, rfl⟩

/-- So objects are collections of values. -/
theorem object_iff {v : Value}
    : Value.ofNode (.map entries) = .ok v
        ↔ ∃ members, Collected some (fun _ node => Value.ofNode node) entries members
          ∧ v = .object members := by
  simp only [Value.ofNode, map_eq_ok_iff, ofEntries_iff, Collected, Keyed.sets.gathered_iff]
  constructor
  · rintro ⟨members, stand, rfl⟩
    exact ⟨_, ⟨members, stand, rfl⟩, rfl⟩
  · rintro ⟨_, ⟨members, stand, rfl⟩, rfl⟩
    exact ⟨members, stand, rfl⟩

/-- The members of an object are fragments themselves. -/
theorem fragment_iff {path : String} {j : Fragment}
    : fragment (.map entries) path = .ok j
        ↔ ∃ members, Collected some (fun _ node => fragment node path) entries members
          ∧ j = .obj members := by
  let write (member : String × Value) : String × Json := (member.1, member.2.toJson)
  have written (members : List (String × Value))
      : (Value.object members).toJson = .obj (members.map write) := by
    rw [Value.toJson, Value.toJsonMembers_eq]
    rfl
  simp only [fragment, map_eq_ok_iff, object_iff]
  constructor
  · rintro ⟨_, ⟨members, ⟨pairs, stand, gathered⟩, rfl⟩, rfl⟩
    refine ⟨_, ⟨pairs.map write, ?_, gathered.map Value.toJson⟩, written members⟩
    refine List.forall₂_map_right_iff.mpr (stand.imp fun entry pair => ?_)
    rintro ⟨text, ofKey, same, read⟩
    exact ⟨text, ofKey, same, map_eq_ok_iff.mpr ⟨pair.2, read, rfl⟩⟩
  · rintro ⟨members, ⟨pairs, stand, gathered⟩, rfl⟩
    obtain ⟨values, ofPairs, read⟩ : ∃ values, pairs = values.map write
        ∧ List.Forall₂ (Stands some fun _ node => Value.ofNode node) entries values := by
      clear gathered
      induction stand with
      | nil => exact ⟨[], rfl, .nil⟩
      | cons first _ ih =>
          obtain ⟨text, ofKey, same, read⟩ := first
          obtain ⟨v, read, json⟩ := map_eq_ok_iff.mp read
          obtain ⟨values, rfl, others⟩ := ih
          refine ⟨(_, v) :: values, ?_, .cons ⟨text, ofKey, same, read⟩ others⟩
          exact congrArg (· :: _) (Prod.ext rfl json.symm)
    refine ⟨_, ⟨Keyed.ofPairs values, ⟨values, read, Keyed.sets.gathered values⟩, rfl⟩, ?_⟩
    rw [written, gathered.unique (ofPairs ▸ (Keyed.sets.gathered values).map Value.toJson)]
    rfl

/-- What a library declares is decoded from its fields. -/
theorem declared {node : Node} {f : Fields node} {l : Library} (h : libraryFields node f = .ok l)
    : declarations f "types" typeNode = .ok l.types
      ∧ declarations f "traits" traitDeclaration = .ok l.traits
      ∧ declarations f "annotationTypes" annotationType = .ok l.annotationTypes
      ∧ f.orElse "uses" uses [] = .ok l.uses := by
  rw [libraryFields] at h
  obtain ⟨usage, -, h⟩ := bind_eq_ok_iff.mp h
  obtain ⟨schemas, -, h⟩ := bind_eq_ok_iff.mp h
  obtain ⟨resourceTypes, -, h⟩ := bind_eq_ok_iff.mp h
  obtain ⟨securitySchemes, -, h⟩ := bind_eq_ok_iff.mp h
  obtain ⟨annotations, -, h⟩ := bind_eq_ok_iff.mp h
  obtain ⟨types, ofTypes, h⟩ := bind_eq_ok_iff.mp h
  obtain ⟨traits, ofTraits, h⟩ := bind_eq_ok_iff.mp h
  obtain ⟨annotationTypes, ofAnnotationTypes, h⟩ := bind_eq_ok_iff.mp h
  rw [Fields.orElse, Fields.optional]
  cases there : f.get? "uses" with
  | none =>
      rw [there] at h
      cases h
      exact ⟨ofTypes, ofTraits, ofAnnotationTypes, rfl⟩
  | some inner =>
      rw [there] at h
      obtain ⟨used, ofUses, h⟩ := bind_eq_ok_iff.mp h
      cases h
      refine ⟨ofTypes, ofTraits, ofAnnotationTypes, ?_⟩
      rw [Option.mapM_some, ofUses]
      rfl

/-- Of a mapping, a collection keeps every key once, in the order in which keys come first, and
under it what is read last: be it properties, the libraries in use, responses, bodies by their media
types, the members of an object or of a fragment, or the declarations of a library. That keys become
one is no error. Where they do, and only there, the collection is shorter than the mapping; where
they do not, each entry of the mapping has its own, in order. -/
theorem collected_of_map (entries : List (Node × Node)) (path : String)
    : (∀ found, properties (.map entries) path = .ok found
        ↔ Collected some (fun name node => property name node (fieldPath path name)) entries found)
      ∧ (∀ found, uses (.map entries) path = .ok found
        ↔ Collected some (fun name node => use node (fieldPath path name)) entries found)
      ∧ (∀ found, responses (.map entries) path = .ok found
        ↔ Collected status? (fun code node => response node (fieldPath path code)) entries found)
      ∧ ((∃ entry ∈ entries, ∃ key, entry.1.keyText = .ok key ∧ isMediaType key = true)
        → ∀ found, bodies (.map entries) path = .ok found
          ↔ Collected some (fun key node => typeNode node (fieldPath path key)) entries found)
      ∧ (∀ v, Value.ofNode (.map entries) = .ok v
        ↔ ∃ members, Collected some (fun _ node => Value.ofNode node) entries members
          ∧ v = .object members)
      ∧ (∀ j, fragment (.map entries) path = .ok j
        ↔ ∃ members, Collected some (fun _ node => fragment node path) entries members
          ∧ j = .obj members)
      ∧ (∀ node (f : Fields node) key, Holds f key entries → ∀ found, f.properties key = .ok found
        ↔ Collected some (fun name node => property name node
            (fieldPath (fieldPath f.path key) name)) entries found)
      ∧ (∀ node (f : Fields node) l, libraryFields node f = .ok l
        → (Holds f "types" entries → Collected some (fun name node => typeNode node
            (fieldPath (fieldPath f.path "types") name)) entries l.types)
          ∧ (Holds f "traits" entries → Collected some (fun name node => traitDeclaration node
            (fieldPath (fieldPath f.path "traits") name)) entries l.traits)
          ∧ (Holds f "annotationTypes" entries → Collected some (fun name node =>
            annotationType node (fieldPath (fieldPath f.path "annotationTypes") name))
            entries l.annotationTypes)
          ∧ (Holds f "uses" entries → Collected some (fun name node => use node
            (fieldPath (fieldPath f.path "uses") name)) entries l.uses))
      ∧ ∀ (κ α : Type) [DecidableEq κ] (convert : String → Option κ)
          (read : String → Node → Except Error α) (found : List (κ × α)),
        Collected convert read entries found
        → (List.Forall₂ (Stands convert read) entries found
            ↔ (entries.map fun entry => key? convert entry.1).Nodup)
          ∧ (found.length < entries.length
            ↔ ¬ (entries.map fun entry => key? convert entry.1).Nodup) := by
  refine ⟨fun _ => properties_map_iff, fun _ => uses_map_iff, fun _ => responses_map_iff,
    fun media _ => bodies_map_iff media, fun _ => object_iff, fun _ => fragment_iff, ?_, ?_, ?_⟩
  · intro node f key holds found
    rw [Fields.properties, orElse_of_holds holds]
    exact properties_map_iff
  · intro node f l h
    obtain ⟨types, traits, annotationTypes, used⟩ := declared h
    refine ⟨fun holds => (declarations_iff holds).mp types,
      fun holds => (declarations_iff holds).mp traits,
      fun holds => (declarations_iff holds).mp annotationTypes, fun holds => ?_⟩
    exact uses_map_iff.mp ((orElse_of_holds holds).mp used)
  · exact fun κ α _ convert read found collected => ⟨collected.whole_iff, collected.length_lt_iff⟩

/-- One media type, twice as a text of its own. -/
def mediaTwice : List (Node × Node) :=
  [(.str "text/plain", .str "string"), (.tagged "media" (.str "text/plain"), .str "integer")]

/-- Of two bodies for one media type, one is left. The same mapping stands for declared types, of
which one is left as well. -/
theorem collected_of_map_mediaTwice
    : (∃ found, bodies (.map mediaTwice) "" = .ok found
        ∧ Collected some (fun key node => typeNode node (fieldPath "" key)) mediaTwice found
        ∧ found.length < mediaTwice.length)
      ∧ ∃ f l, fields (.map [(.str "types", .map mediaTwice)]) "" = .ok f
        ∧ Holds f "types" mediaTwice
        ∧ libraryFields _ f = .ok l
        ∧ Collected some (fun name node => typeNode node
            (fieldPath (fieldPath f.path "types") name)) mediaTwice l.types := by
  obtain ⟨-, -, -, ofBodies, -, -, -, ofLibrary, lost⟩ := collected_of_map mediaTwice ""
  constructor
  · obtain ⟨found, decoded⟩ : ∃ found, (bodies (.map mediaTwice) "").toOption = some found :=
      Option.isSome_iff_exists.mp (by decide +kernel)
    have media : ∃ entry ∈ mediaTwice, ∃ key, entry.1.keyText = .ok key ∧ isMediaType key = true :=
      ⟨_, List.mem_cons_self, "text/plain", rfl, by decide⟩
    have collected := (ofBodies media found).mp (ok_of_toOption decoded)
    exact ⟨found, ok_of_toOption decoded, collected,
      (lost _ _ _ _ _ collected).2.mpr (by decide)⟩
  · let inner : Inside (.map [(.str "types", .map mediaTwice)]) :=
      ⟨.map mediaTwice, sizeOf_lt_of_mem List.mem_cons_self⟩
    obtain ⟨l, decoded⟩ : ∃ l, (libraryFields _ ⟨"", [("types", inner)]⟩).toOption = some l :=
      Option.isSome_iff_exists.mp (by decide +kernel)
    have holds : Holds ⟨"", [("types", inner)]⟩ "types" mediaTwice := ⟨inner, rfl, rfl⟩
    refine ⟨_, l, rfl, holds, ok_of_toOption decoded, ?_⟩
    exact (ofLibrary _ _ l (ok_of_toOption decoded)).1 holds

/-- The number and the string `1` are two keys of a mapping, and one name of a property. -/
theorem not_entry_for_each
    : ¬ ∀ (entries : List (Node × Node)) (path : String) (found : Properties),
        entries.Pairwise (fun entry later => entry.1.same later.1 = false)
        → properties (.map entries) path = .ok found
        → found.length = entries.length := by
  intro whole
  have decoded : properties (.map [(.num (.int 1), .str "string"), (.str "1", .str "integer")]) ""
      = .ok [("1", { type := .ofName "integer", required := true, name := "1" })] := by
    refine properties_map_iff.mpr
      ⟨[("1", { type := .ofName "string", required := true, name := "1" }),
        ("1", { type := .ofName "integer", required := true, name := "1" })], ?_, ?_⟩
    · refine .cons ⟨"1", rfl, rfl, ?_⟩ (.cons ⟨"1", rfl, rfl, ?_⟩ .nil)
      · simp [property, typeNode, text, Except.map]
      · simp [property, typeNode, text, Except.map]
    · exact Keyed.sets.gathered_iff.mpr rfl
  have := whole _ _ _ (by decide) decoded
  cases this

end Decode

end Raml
