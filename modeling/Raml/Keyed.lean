/-! Maps that keep the order in which their keys were first given. -/

namespace Raml

/-- Entries in order of declaration, keys once each. -/
abbrev Keyed (α : Type) := List (String × α)

namespace Keyed

variable {α β : Type}

/-- The keys in order. -/
def keys (m : Keyed α) : List String := m.map (·.1)

/-- The value under a key. -/
def get? : Keyed α → String → Option α
  | [], _ => none
  | (k, v) :: m, key => if k = key then some v else get? m key

/-- Whether there is a value under a key. -/
def has (m : Keyed α) (key : String) : Bool := m.any (·.1 == key)

/-- Sets the value under a key: in place if the key is there, else at the end. -/
def insert : Keyed α → String → α → Keyed α
  | [], key, v => [(key, v)]
  | (k, w) :: m, key, v => if k = key then (k, v) :: m else (k, w) :: insert m key v

/-- Takes out the entry of a key; the others keep their order. -/
def erase : Keyed α → String → Keyed α
  | [], _ => []
  | (k, v) :: m, key => if k = key then m else (k, v) :: erase m key

/-- Applies a function to every value. -/
def mapValues (f : α → β) (m : Keyed α) : Keyed β := m.map fun (k, v) => (k, f v)

/-- Entries in the order given; of those with one key, the last one counts, at the place of the
first. -/
def ofPairs (pairs : List (String × α)) : Keyed α :=
  pairs.foldl (fun m (k, v) => m.insert k v) []

/-- Adds the entries of `more` whose keys are not there yet. -/
def addMissing (m more : Keyed α) : Keyed α :=
  more.foldl (fun m (k, v) => if m.has k then m else m ++ [(k, v)]) m

@[simp] theorem get?_nil (key : String) : get? ([] : Keyed α) key = none := rfl

@[simp] theorem get?_cons (k key : String) (v : α) (m : Keyed α)
    : get? ((k, v) :: m) key = if k = key then some v else get? m key := rfl

@[simp] theorem keys_mapValues (f : α → β) (m : Keyed α) : (m.mapValues f).keys = m.keys := by
  simp [keys, mapValues, Function.comp_def]

theorem get?_insert (m : Keyed α) (k key : String) (v : α)
    : (m.insert k v).get? key = if k = key then some v else m.get? key := by
  induction m with
  | nil => rfl
  | cons entry m ih =>
      obtain ⟨l, w⟩ := entry
      by_cases h : l = k
      · subst h
        by_cases hk : l = key <;> simp [insert, hk]
      · by_cases hk : l = key
        · subst hk
          simp [insert, h, Ne.symm h]
        · simp [insert, h, hk, ih]

/-- What look-up finds is an entry. -/
theorem mem_of_get? {m : Keyed α} {key : String} {v : α} (h : m.get? key = some v)
    : (key, v) ∈ m := by
  induction m with
  | nil => simp at h
  | cons entry m ih =>
      obtain ⟨l, w⟩ := entry
      by_cases hl : l = key
      · subst hl
        simp_all
      · simp only [get?_cons, hl, if_false] at h
        exact List.mem_cons_of_mem _ (ih h)

/-- Keys are found exactly where they stand. -/
theorem get?_isSome_iff {m : Keyed α} {key : String} : (m.get? key).isSome ↔ key ∈ m.keys := by
  induction m with
  | nil => simp [keys]
  | cons entry m ih =>
      obtain ⟨l, w⟩ := entry
      by_cases hl : l = key
      · simp [keys, hl]
      · simpa [keys, hl, Ne.symm hl] using ih

theorem get?_eq_none_iff {m : Keyed α} {key : String} : m.get? key = none ↔ key ∉ m.keys := by
  simp [← get?_isSome_iff]

/-- Where keys stand once, look-up finds every entry. -/
theorem get?_of_mem {m : Keyed α} {key : String} {v : α} (unique : m.keys.Nodup)
    (h : (key, v) ∈ m)
    : m.get? key = some v := by
  induction m with
  | nil => simp at h
  | cons entry m ih =>
      obtain ⟨l, w⟩ := entry
      obtain ⟨absent, unique⟩ := List.nodup_cons.mp unique
      rcases List.mem_cons.mp h with same | later
      · cases same
        simp
      · have hl : l ≠ key := by
          rintro rfl
          exact absent (List.mem_map.mpr ⟨_, later, rfl⟩)
        simpa [hl] using ih unique later

/-- Look-up does not depend on the order of entries. -/
theorem get?_perm {m n : Keyed α} (unique : m.keys.Nodup) (h : m.Perm n) (key : String)
    : m.get? key = n.get? key := by
  have unique' : n.keys.Nodup := (h.map Prod.fst).nodup_iff.mp unique
  cases found : n.get? key with
  | some v => exact get?_of_mem unique (h.mem_iff.mpr (mem_of_get? found))
  | none =>
      rw [get?_eq_none_iff] at found ⊢
      exact fun member => found ((h.map Prod.fst).mem_iff.mp member)

theorem get?_mapValues (f : α → β) (m : Keyed α) (key : String)
    : (m.mapValues f).get? key = (m.get? key).map f := by
  induction m with
  | nil => rfl
  | cons entry m ih =>
      obtain ⟨l, w⟩ := entry
      by_cases hl : l = key
      · simp [mapValues, hl]
      · simpa [mapValues, hl] using ih

theorem get?_append (m n : Keyed α) (key : String)
    : get? (m ++ n) key = (m.get? key).or (n.get? key) := by
  induction m with
  | nil => simp
  | cons entry m ih =>
      obtain ⟨l, w⟩ := entry
      by_cases hl : l = key <;> simp [hl, ih]

/-- Setting the value of a key that is there moves no entry. -/
theorem keys_insert {m : Keyed α} {key : String} (v : α) (h : key ∈ m.keys)
    : keys (m.insert key v) = m.keys := by
  induction m with
  | nil => simp [keys] at h
  | cons entry m ih =>
      obtain ⟨l, w⟩ := entry
      by_cases hl : l = key
      · simp [insert, keys, hl]
      · have later : key ∈ keys m := by simpa [keys, Ne.symm hl] using h
        simpa [insert, keys, hl] using ih later

/-- Setting a value that is there already changes nothing. -/
theorem insert_of_get? {m : Keyed α} {key : String} {v : α} (h : m.get? key = some v)
    : m.insert key v = m := by
  induction m with
  | nil => simp at h
  | cons entry m ih =>
      obtain ⟨l, w⟩ := entry
      by_cases hl : l = key
      · simp_all [insert]
      · simp_all [insert]

theorem mem_keys_insert {m : Keyed α} {key other : String} {v : α}
    : other ∈ keys (m.insert key v) ↔ other = key ∨ other ∈ m.keys := by
  induction m with
  | nil => simp [insert, keys]
  | cons entry m ih =>
      obtain ⟨l, w⟩ := entry
      by_cases hl : l = key
      · simp [insert, keys, hl]
      · simp only [insert, hl, if_false, keys, List.map_cons, List.mem_cons] at ih ⊢
        rw [ih, or_left_comm]

/-- Setting a value leaves no key twice. -/
theorem nodup_insert {m : Keyed α} (key : String) (v : α) (unique : m.keys.Nodup)
    : (keys (m.insert key v)).Nodup := by
  induction m with
  | nil => simp [insert, keys]
  | cons entry m ih =>
      obtain ⟨l, w⟩ := entry
      obtain ⟨new, rest⟩ := List.nodup_cons.mp unique
      by_cases hl : l = key
      · simpa [insert, hl, keys] using unique
      · simp only [insert, hl, if_false]
        refine List.nodup_cons.mpr ⟨fun member => ?_, ih rest⟩
        exact new ((mem_keys_insert.mp member).resolve_left hl)

theorem mem_insert {m : Keyed α} {key : String} {v : α} {entry : String × α}
    (h : entry ∈ m.insert key v)
    : entry = (key, v) ∨ entry ∈ m := by
  induction m with
  | nil => exact Or.inl (List.mem_singleton.mp h)
  | cons first m ih =>
      obtain ⟨l, w⟩ := first
      unfold insert at h
      split at h
      · rename_i same
        rcases List.mem_cons.mp h with rfl | later
        · exact Or.inl (by rw [same])
        · exact Or.inr (List.mem_cons_of_mem _ later)
      · rcases List.mem_cons.mp h with rfl | later
        · exact Or.inr List.mem_cons_self
        · exact (ih later).imp_right (List.mem_cons_of_mem _)

/-- What each insertion keeps holds of the entries that are made of pairs. -/
theorem ofPairs_induct {P : Keyed α → Prop} (pairs : List (String × α)) (nil : P [])
    (step : ∀ m key v, (key, v) ∈ pairs → P m → P (m.insert key v))
    : P (ofPairs pairs) := by
  suffices all : ∀ (rest : List (String × α)) (m : Keyed α), (∀ q ∈ rest, q ∈ pairs) → P m
      → P (rest.foldl (fun m (k, v) => m.insert k v) m) from all pairs [] (fun _ => id) nil
  intro rest
  induction rest with
  | nil => exact fun _ _ start => start
  | cons first rest ih =>
      intro m within start
      refine ih _ (fun q later => within q (List.mem_cons_of_mem _ later)) ?_
      exact step m first.1 first.2 (within first List.mem_cons_self) start

theorem nodup_ofPairs (pairs : List (String × α)) : (keys (ofPairs pairs)).Nodup :=
  ofPairs_induct (P := fun m => m.keys.Nodup) pairs List.nodup_nil
    fun _ key v _ unique => nodup_insert key v unique

theorem mem_of_mem_ofPairs {pairs : List (String × α)} {entry : String × α}
    (h : entry ∈ ofPairs pairs)
    : entry ∈ pairs := by
  refine ofPairs_induct (P := fun m => entry ∈ m → entry ∈ pairs) pairs (nomatch ·) ?_ h
  intro m key v member kept inside
  rcases mem_insert inside with rfl | earlier
  · exact member
  · exact kept earlier

theorem has_iff {m : Keyed α} {key : String} : m.has key = true ↔ key ∈ m.keys := by
  simp [has, keys]

theorem mem_of_mem_erase {m : Keyed α} {key : String} {entry : String × α}
    (h : entry ∈ m.erase key)
    : entry ∈ m := by
  induction m with
  | nil => exact h
  | cons first m ih =>
      unfold erase at h
      split at h
      · exact List.mem_cons_of_mem _ h
      · rcases List.mem_cons.mp h with rfl | later
        · exact List.mem_cons_self
        · exact List.mem_cons_of_mem _ (ih later)

/-- What each addition under a new key keeps holds when all keys that were missing are there. -/
theorem foldl_missing_induct {P : Keyed α → Prop} (value : String → α) (keys : List String)
    {m : Keyed α} (start : P m)
    (step : ∀ m key, m.has key = false → P m → P (m ++ [(key, value key)]))
    : P (keys.foldl (fun m key => if m.has key then m else m ++ [(key, value key)]) m) := by
  induction keys generalizing m with
  | nil => exact start
  | cons key keys ih =>
      rw [List.foldl_cons]
      apply ih
      cases known : m.has key with
      | true => simpa using start
      | false => simpa using step m key known start

/-- The names that are no keys, once each, in the order in which they come first. -/
def missingNames (m : Keyed α) (names : List String) : List String :=
  (names.filter fun name => !m.has name).eraseDups

theorem mem_missingNames_iff {m : Keyed α} {names : List String} {name : String}
    : name ∈ m.missingNames names ↔ name ∈ names ∧ name ∉ m.keys := by
  rw [missingNames, List.mem_eraseDups, List.mem_filter, ← has_iff]
  simp

/-- Where values are added under all keys that were missing, they come behind the others. -/
theorem foldl_missing_eq (value : String → α) (names : List String) (m : Keyed α)
    : names.foldl (fun m name => if m.has name then m else m ++ [(name, value name)]) m
      = m ++ (m.missingNames names).map fun name => (name, value name) := by
  induction names generalizing m with
  | nil => simp [missingNames]
  | cons name names ih =>
      rw [List.foldl_cons]
      cases known : m.has name with
      | true => simpa [missingNames, known] using ih m
      | false =>
          -- What is missing behind the new key are the other names that were missing before.
          have others
              : (names.filter fun other => !m.has other).filter (fun other => !other == name)
              = names.filter fun other => !has (m ++ [(name, value name)]) other := by
            rw [List.filter_filter]
            congr
            funext other
            simp [has, Bool.and_comm, BEq.comm (a := name)]
          rw [if_neg (by simp), ih, missingNames, missingNames,
            List.filter_cons_of_pos (by simp [known]), List.eraseDups_cons, others]
          simp

theorem keys_append_missing (m : Keyed α) (names : List String) (value : String → α)
    : keys (m ++ (m.missingNames names).map fun name => (name, value name))
      = m.keys ++ m.missingNames names := by
  simp [keys, Function.comp_def]

/-- Where values have been added under all keys that were missing, none is missing any more. -/
theorem missingNames_append (m : Keyed α) (names : List String) (value : String → α)
    : missingNames (m ++ (m.missingNames names).map fun name => (name, value name)) names = [] := by
  refine List.eq_nil_iff_forall_not_mem.mpr fun name member => ?_
  obtain ⟨listed, new⟩ := mem_missingNames_iff.mp member
  rw [keys_append_missing, List.mem_append, not_or] at new
  exact new.2 (mem_missingNames_iff.mpr ⟨listed, new.1⟩)

theorem nodup_append_new {m : Keyed α} {key : String} (v : α) (unique : m.keys.Nodup)
    (new : m.has key = false)
    : (keys (m ++ [(key, v)])).Nodup := by
  rw [keys, List.map_append]
  refine List.nodup_append.mpr ⟨unique, List.pairwise_singleton _ _, ?_⟩
  rintro other member _ last rfl
  cases List.mem_singleton.mp last
  rw [has_iff.mpr member] at new
  cases new

theorem erase_eq_filter {m : Keyed α} (unique : m.keys.Nodup) (key : String)
    : m.erase key = m.filter fun entry => entry.1 ≠ key := by
  induction m with
  | nil => rfl
  | cons entry m ih =>
      obtain ⟨l, v⟩ := entry
      obtain ⟨new, rest⟩ := List.nodup_cons.mp unique
      by_cases same : l = key
      · subst same
        have others : ∀ entry ∈ m, decide (entry.1 ≠ l) = true := by
          rintro ⟨other, w⟩ member
          exact decide_eq_true fun same => new (List.mem_map.mpr ⟨_, member, same⟩)
        simpa [erase] using (List.filter_eq_self.mpr others).symm
      · simp [erase, same, ih rest]

theorem nodup_erase {m : Keyed α} (key : String) (unique : m.keys.Nodup)
    : (keys (m.erase key)).Nodup := by
  suffices within : (keys (m.erase key)).Sublist m.keys from within.nodup unique
  clear unique
  induction m with
  | nil => exact List.Sublist.refl _
  | cons entry m ih =>
      unfold erase
      split
      · exact List.sublist_cons_self _ _
      · exact ih.cons_cons _

theorem nodup_addMissing {m : Keyed α} (more : Keyed α) (unique : m.keys.Nodup)
    : (keys (addMissing m more)).Nodup := by
  induction more generalizing m with
  | nil => exact unique
  | cons entry more ih =>
      refine ih (m := if m.has entry.1 then m else m ++ [entry]) ?_
      cases known : m.has entry.1 with
      | true => simpa using unique
      | false => simpa using nodup_append_new entry.2 unique known

/-- Entries are added behind the others, and only under keys that are not there. -/
theorem get?_addMissing (m more : Keyed α) (key : String)
    : (addMissing m more).get? key = (m.get? key).or (more.get? key) := by
  induction more generalizing m with
  | nil => simp [addMissing]
  | cons entry more ih =>
      obtain ⟨l, w⟩ := entry
      have step : addMissing m ((l, w) :: more)
          = addMissing (if m.has l then m else m ++ [(l, w)]) more := rfl
      rw [step, ih]
      by_cases known : m.has l
      · by_cases hl : l = key
        · subst hl
          have found := get?_isSome_iff.mpr (has_iff.mp known)
          simp [known, Option.or_of_isSome found]
        · simp [known, hl]
      · by_cases hl : l = key
        · subst hl
          have none : m.get? l = none := get?_eq_none_iff.mpr fun h => known (has_iff.mpr h)
          simp [known, get?_append, none]
        · simp [known, get?_append, hl]

end Keyed

end Raml
