import Mathlib.Data.List.Forall2
import Mathlib.Data.List.Induction
import Mathlib.Data.List.Nodup
import Mathlib.Data.String.Basic
import Raml.Pass.Normalize

/-! Properties named by their keys, without the question marks of optional ones.

A key gives one name, and entries with the same name clash. Properties whose entries do not clash
keep all they say, each under its name; else the first entry that repeats a name is reported. One
question mark is taken off a key, so names end with one where keys end with two.
-/

namespace Raml

namespace Property

-----------------------------------------------------------------------------------------
-- Keys and names
-----------------------------------------------------------------------------------------

/-- The key says that its property may be left out. -/
def OptionalKey (key : String) : Prop := ∃ name, key = name ++ "?"

/-- The key gives the name: without the question mark, if it ends with one. -/
def Names (key name : String) : Prop := key = name ++ "?" ∨ ¬OptionalKey key ∧ key = name

/-- The name that a key gives. -/
def nameOf (key : String) : String := (splitOptional key).1

/-- A mark at the end is taken off. -/
theorem splitOptional_append (name : String) : splitOptional (name ++ "?") = (name, true) := by
  simp [splitOptional]

/-- Without a mark nothing is taken off. -/
theorem splitOptional_of_not_optionalKey {key : String} (h : ¬OptionalKey key)
    : splitOptional key = (key, false) := by
  unfold splitOptional
  split
  · rename_i rest reversed
    have ends : key.toList = rest.reverse ++ ['?'] := by
      simpa using congrArg List.reverse reversed
    refine absurd ⟨String.ofList rest.reverse, ?_⟩ h
    rw [← String.toList_inj, ends, String.toList_append, String.toList_ofList]
    rfl
  · rfl

/-- What is told besides the name is whether there was a mark. -/
theorem splitOptional_snd {key : String} : (splitOptional key).2 = true ↔ OptionalKey key := by
  constructor
  · intro optional
    by_contra plain
    rw [splitOptional_of_not_optionalKey plain] at optional
    cases optional
  · rintro ⟨name, rfl⟩
    rw [splitOptional_append]

/-- A name with a mark is that name. -/
theorem nameOf_append (name : String) : nameOf (name ++ "?") = name := by
  rw [nameOf, splitOptional_append]

theorem nameOf_of_not_optionalKey {key : String} (h : ¬OptionalKey key) : nameOf key = key := by
  rw [nameOf, splitOptional_of_not_optionalKey h]

/-- A key is its own name if it has no mark. -/
theorem nameOf_eq_self_iff {key : String} : nameOf key = key ↔ ¬OptionalKey key := by
  refine ⟨?_, nameOf_of_not_optionalKey⟩
  rintro same ⟨name, rfl⟩
  rw [nameOf_append] at same
  simpa using congrArg String.length same

/-- The name of a key is computed as it is described. -/
theorem names_iff {key name : String} : Names key name ↔ nameOf key = name := by
  constructor
  · rintro (rfl | ⟨plain, rfl⟩)
    · exact nameOf_append name
    · exact nameOf_of_not_optionalKey plain
  · rintro rfl
    by_cases optional : OptionalKey key
    · obtain ⟨name, rfl⟩ := optional
      exact Or.inl (by rw [nameOf_append])
    · exact Or.inr ⟨optional, (nameOf_of_not_optionalKey optional).symm⟩

/-- A name ends with a question mark exactly if its key ends with two. -/
theorem optionalKey_nameOf_iff {key : String}
    : OptionalKey (nameOf key) ↔ ∃ name, key = name ++ "??" := by
  have twice (name : String) : name ++ "??" = name ++ "?" ++ "?" := by
    rw [String.append_assoc]
    rfl
  constructor
  · rintro ⟨name, ends⟩
    by_cases optional : OptionalKey key
    · obtain ⟨first, rfl⟩ := optional
      rw [nameOf_append] at ends
      exact ⟨name, by rw [ends, twice]⟩
    · rw [nameOf_of_not_optionalKey optional] at ends
      exact absurd ⟨name, ends⟩ optional
  · rintro ⟨name, rfl⟩
    exact ⟨name, by rw [twice, nameOf_append]⟩

/-- The property comes to stand under its name, which becomes its own. It may be left out if it was
so before or its key said so. -/
structure Normalizes (key : String) (p : Property) (name : String) (p' : Property) : Prop where
  names : Names key name
  type : p'.type = p.type
  name : p'.name = name
  required : p'.required = false ↔ p.required = false ∨ OptionalKey key

/-- What becomes of a property. -/
def normal (key : String) (p : Property) : Property :=
  { p with required := p.required && !(splitOptional key).2, name := nameOf key }

/-- A property that is named by its key stays as it is, if the key says no more. -/
theorem normal_of_not_optionalKey {key : String} {p : Property} (plain : ¬OptionalKey key)
    (named : p.name = key)
    : p.normal key = p := by
  obtain ⟨type, required, name⟩ := p
  cases named
  simp [normal, nameOf, splitOptional_of_not_optionalKey plain]

/-- The property is computed as it is described. -/
theorem normalizes_iff {key name : String} {p p' : Property}
    : Normalizes key p name p' ↔ name = nameOf key ∧ p' = p.normal key := by
  have required (b : Bool)
      : (b = false ↔ p.required = false ∨ OptionalKey key)
        ↔ b = (p.required && !(splitOptional key).2) := by
    rw [← splitOptional_snd]
    cases b <;> cases p.required <;> cases (splitOptional key).2 <;> decide
  constructor
  · rintro ⟨named, type, same, optional⟩
    obtain ⟨_, _, _⟩ := p'
    rw [names_iff] at named
    rw [required] at optional
    cases named
    cases type
    cases same
    cases optional
    exact ⟨rfl, rfl⟩
  · rintro ⟨rfl, rfl⟩
    exact ⟨names_iff.mpr rfl, rfl, rfl, (required _).mpr rfl⟩

/-- Two keys give the same name. -/
def Clash (key key' : String) : Prop := ∃ name, Names key name ∧ Names key' name

/-- Keys clash if they name the same. -/
theorem clash_iff {key key' : String} : Clash key key' ↔ nameOf key = nameOf key' := by
  simp [Clash, names_iff, eq_comm]

end Property

namespace Properties

open Property

variable {done ps ps' : Properties} {e : Error}

-----------------------------------------------------------------------------------------
-- Runs
-----------------------------------------------------------------------------------------

/-- The names that the keys give, in order. -/
def names (ps : Properties) : List String := ps.map fun entry => nameOf entry.1

/-- What becomes of properties whose names are all different. -/
def normals (ps : Properties) : Properties :=
  ps.map fun entry => (nameOf entry.1, entry.2.normal entry.1)

/-- Normal properties have names for keys. -/
theorem keys_normals (ps : Properties) : Keyed.keys ps.normals = ps.names := by
  simp [Keyed.keys, normals, names, Function.comp_def]

/-- A property is added under its name, unless one with that name is there. -/
theorem normalizeFrom_cons (done ps : Properties) (key : String) (p : Property)
    : normalizeFrom done ((key, p) :: ps)
      = if Keyed.has done (nameOf key) then .error (.duplicateProperty (nameOf key))
        else normalizeFrom (done ++ [(nameOf key, p.normal key)]) ps :=
  rfl

/-- As long as names are new, each property is put behind those that have been taken. -/
theorem normalizeFrom_append {before : Properties}
    (apart : (Keyed.keys done ++ before.names).Nodup) (rest : Properties)
    : normalizeFrom done (before ++ rest) = normalizeFrom (done ++ before.normals) rest := by
  induction before generalizing done with
  | nil => simp [normals]
  | cons entry before ih =>
      obtain ⟨key, p⟩ := entry
      have new : nameOf key ∉ Keyed.keys done := by
        have separate := (List.nodup_append.mp apart).2.2
        exact fun member => separate _ member _ List.mem_cons_self rfl
      have apart : (Keyed.keys (done ++ [(nameOf key, p.normal key)]) ++ names before).Nodup := by
        simpa [Keyed.keys, names] using apart
      rw [List.cons_append, normalizeFrom_cons, if_neg (mt Keyed.has_iff.mp new), ih apart]
      simp [normals]

/-- As long as names are apart, properties become normal one by one. -/
theorem normalizeFrom_nil_append {before : Properties} (apart : before.names.Nodup)
    (rest : Properties)
    : normalizeFrom [] (before ++ rest) = normalizeFrom before.normals rest := by
  have apart : (Keyed.keys ([] : Properties) ++ before.names).Nodup := apart
  exact normalizeFrom_append apart rest

/-- If all names are apart, all properties become normal. -/
theorem normalizeFrom_of_nodup (apart : ps.names.Nodup)
    : normalizeFrom [] ps = .ok ps.normals := by
  have run := normalizeFrom_nil_append apart []
  rwa [List.append_nil] at run

/-- Where no key says that its property may be left out, keys are names. -/
theorem normals_eq_nameByKeys (plain : ∀ key ∈ Keyed.keys ps, ¬OptionalKey key)
    : ps.normals = ps.nameByKeys := by
  refine List.map_congr_left fun entry member => ?_
  have key := splitOptional_of_not_optionalKey (plain _ (List.mem_map_of_mem member))
  simp [normal, nameOf, key]

/-- Keys without marks are the names of their properties. -/
theorem names_eq_keys (plain : ∀ key ∈ Keyed.keys ps, ¬OptionalKey key)
    : ps.names = Keyed.keys ps :=
  List.map_congr_left fun _ member =>
    nameOf_of_not_optionalKey (plain _ (List.mem_map_of_mem member))

theorem hasOptionalKeys_eq_false_iff
    : ps.hasOptionalKeys = false ↔ ∀ key ∈ Keyed.keys ps, ¬OptionalKey key := by
  simp only [hasOptionalKeys, List.any_eq_false, splitOptional_snd, Keyed.keys, List.forall_mem_map]

/-- Without marks, properties are named and nothing can clash. -/
theorem normalize_of_plain (plain : ∀ key ∈ Keyed.keys ps, ¬OptionalKey key)
    : ps.normalize = .ok ps.normals := by
  rw [normalize, hasOptionalKeys_eq_false_iff.mpr plain, normals_eq_nameByKeys plain]
  rfl

/-- Where no key stands twice, both ways of naming properties come to the same: keys that are names
already do not clash. -/
theorem normalize_eq (unique : (Keyed.keys ps).Nodup) : ps.normalize = normalizeFrom [] ps := by
  cases marked : ps.hasOptionalKeys with
  | true => rw [normalize, if_pos marked]
  | false =>
      have plain := hasOptionalKeys_eq_false_iff.mp marked
      rw [normalize_of_plain plain, normalizeFrom_of_nodup (names_eq_keys plain ▸ unique)]

-----------------------------------------------------------------------------------------
-- Results and errors
-----------------------------------------------------------------------------------------

/-- Where a name is repeated, there is a first entry that repeats one. -/
theorem exists_first_repetition {ps : Properties} (repeats : ¬ps.names.Nodup)
    : ∃ (before : Properties) (key : String) (p : Property) (after : Properties),
        ps = before ++ (key, p) :: after ∧ before.names.Nodup ∧ nameOf key ∈ before.names := by
  induction ps using List.reverseRecOn with
  | nil => exact absurd List.nodup_nil repeats
  | append_singleton ps last ih =>
      by_cases earlier : (names ps).Nodup
      · refine ⟨ps, last.1, last.2, [], rfl, earlier, ?_⟩
        by_contra new
        exact repeats (by simpa [names] using earlier.concat new)
      · obtain ⟨before, key, p, after, rfl, unique, member⟩ := ih earlier
        exact ⟨before, key, p, after ++ [last], by simp, unique, member⟩

/-- The first name that is there already is the one that is reported. -/
theorem normalizeFrom_of_repetition {before : Properties} {key : String}
    (apart : before.names.Nodup) (repeated : nameOf key ∈ before.names) (p : Property)
    (after : Properties)
    : normalizeFrom [] (before ++ (key, p) :: after)
      = .error (.duplicateProperty (nameOf key)) := by
  have taken : Keyed.has before.normals (nameOf key) = true :=
    Keyed.has_iff.mpr (keys_normals before ▸ repeated)
  rw [normalizeFrom_nil_append apart, normalizeFrom_cons, if_pos taken]

/-- Properties become normal exactly if their names are apart. -/
theorem normalizeFrom_eq_ok_iff
    : normalizeFrom [] ps = .ok ps' ↔ ps.names.Nodup ∧ ps' = ps.normals := by
  by_cases apart : ps.names.Nodup
  · rw [normalizeFrom_of_nodup apart]
    simp [apart, eq_comm]
  · obtain ⟨before, key, p, after, rfl, unique, repeated⟩ := exists_first_repetition apart
    rw [normalizeFrom_of_repetition unique repeated]
    simp [apart]

/-- The name that is reported is that of the first entry that repeats one. -/
theorem normalizeFrom_eq_error_iff
    : normalizeFrom [] ps = .error e
      ↔ ∃ (before : Properties) (key : String) (p : Property) (after : Properties),
        ps = before ++ (key, p) :: after ∧ before.names.Nodup ∧ nameOf key ∈ before.names
          ∧ e = .duplicateProperty (nameOf key) := by
  constructor
  · intro error
    have repeats : ¬ps.names.Nodup := by
      intro apart
      rw [normalizeFrom_of_nodup apart] at error
      cases error
    obtain ⟨before, key, p, after, rfl, unique, repeated⟩ := exists_first_repetition repeats
    rw [normalizeFrom_of_repetition unique repeated] at error
    exact ⟨before, key, p, after, rfl, unique, repeated, (Except.error.inj error).symm⟩
  · rintro ⟨before, key, p, after, rfl, unique, repeated, rfl⟩
    exact normalizeFrom_of_repetition unique repeated p after

/-- The same for both ways of normalizing, as a mapping has no key twice. -/
theorem normalize_eq_ok_iff (unique : (Keyed.keys ps).Nodup)
    : ps.normalize = .ok ps' ↔ ps.names.Nodup ∧ ps' = ps.normals := by
  rw [normalize_eq unique, normalizeFrom_eq_ok_iff]

/-- Whatever comes of properties, it is what becomes of each, and in order. -/
theorem eq_normals_of_normalize (h : ps.normalize = .ok ps') : ps' = ps.normals := by
  cases marked : ps.hasOptionalKeys with
  | true =>
      rw [normalize, if_pos marked] at h
      exact (normalizeFrom_eq_ok_iff.mp h).2
  | false =>
      rw [normalize_of_plain (hasOptionalKeys_eq_false_iff.mp marked)] at h
      exact (Except.ok.inj h).symm

/-- No other error comes up. -/
theorem exists_name_of_normalize_eq_error (h : ps.normalize = .error e)
    : ∃ name, e = .duplicateProperty name := by
  unfold normalize at h
  split at h
  · obtain ⟨_, key, _, _, -, -, -, rfl⟩ := normalizeFrom_eq_error_iff.mp h
    exact ⟨nameOf key, rfl⟩
  · cases h

/-- No two entries give the same name. -/
def Apart (ps : Properties) : Prop := ps.Pairwise fun entry entry' => ¬Clash entry.1 entry'.1

/-- Properties are apart if their names are. -/
theorem apart_iff : ps.Apart ↔ ps.names.Nodup := by
  simp only [Apart, clash_iff, names, List.Nodup, List.pairwise_map, ne_eq]

/-- The name is that of the first entry whose key gives a name that an earlier one gives. -/
def Repeats (ps : Properties) (name : String) : Prop :=
  ∃ (before : Properties) (key : String) (p : Property) (after : Properties),
    ps = before ++ (key, p) :: after ∧ before.Apart ∧ Names key name
      ∧ ∃ entry ∈ before, Names entry.1 name

/-- The name in the error is the first one that comes up again. -/
theorem normalize_eq_error_iff_repeats (unique : (Keyed.keys ps).Nodup)
    : ps.normalize = .error e ↔ ∃ name, ps.Repeats name ∧ e = .duplicateProperty name := by
  rw [normalize_eq unique, normalizeFrom_eq_error_iff]
  simp only [Repeats, apart_iff, names_iff]
  constructor
  · rintro ⟨before, key, p, after, split, unique, repeated, rfl⟩
    exact ⟨_, ⟨before, key, p, after, split, unique, rfl, List.mem_map.mp repeated⟩, rfl⟩
  · rintro ⟨_, ⟨before, key, p, after, split, unique, rfl, repeated⟩, rfl⟩
    exact ⟨before, key, p, after, split, unique, List.mem_map.mpr repeated, rfl⟩

/-- What is computed is each property as it is described, in the same order. -/
theorem eq_normals_iff
    : ps' = ps.normals
      ↔ List.Forall₂ (fun entry entry' => Normalizes entry.1 entry.2 entry'.1 entry'.2) ps ps' := by
  have same (entry entry' : String × Property)
      : Normalizes entry.1 entry.2 entry'.1 entry'.2
        ↔ entry' = (nameOf entry.1, entry.2.normal entry.1) := by
    rw [normalizes_iff, Prod.ext_iff]
  simp only [same]
  rw [eq_comm, ← List.forall₂_eq_eq_eq, normals, List.forall₂_map_left_iff]
  simp only [eq_comm]

/-- Properties whose entries do not clash come to stand under their names, one by one and in order.
Of others, the first entry that repeats a name is reported. -/
theorem normalize_iff_apart (ps : Properties) (unique : (Keyed.keys ps).Nodup)
    : (∀ ps', ps.normalize = .ok ps' ↔ ps.Apart
        ∧ List.Forall₂ (fun entry entry' => Normalizes entry.1 entry.2 entry'.1 entry'.2) ps ps')
      ∧ (∀ e, ps.normalize = .error e ↔ ∃ name, ps.Repeats name ∧ e = .duplicateProperty name)
      ∧ ((∃ name, ps.normalize = .error (.duplicateProperty name)) ↔ ¬ps.Apart) := by
  refine ⟨fun ps' => ?_, fun e => normalize_eq_error_iff_repeats unique, ?_⟩
  · rw [normalize_eq_ok_iff unique, apart_iff, eq_normals_iff]
  · rw [apart_iff, normalize_eq unique]
    constructor
    · rintro ⟨name, error⟩ apart
      rw [normalizeFrom_of_nodup apart] at error
      cases error
    · intro repeats
      obtain ⟨before, key, p, after, rfl, unique, repeated⟩ := exists_first_repetition repeats
      exact ⟨_, normalizeFrom_of_repetition unique repeated p after⟩

/-- A title that is declared twice, once as one that may be left out. -/
def titles : Properties := [("title", .ofName "title" "string"), ("title?", .ofName "title?" "any")]

/-- The titles have two keys of one name. -/
theorem normalize_titles
    : (Keyed.keys titles).Nodup ∧ ¬titles.Apart
        ∧ (∀ e, titles.normalize = .error e
          ↔ ∃ name, titles.Repeats name ∧ e = .duplicateProperty name)
        ∧ ∃ name, titles.normalize = .error (.duplicateProperty name) := by
  have unique : (Keyed.keys titles).Nodup := by decide
  have clash : ¬titles.Apart := by
    rw [apart_iff]
    decide +kernel
  obtain ⟨-, error, iff⟩ := normalize_iff_apart titles unique
  exact ⟨unique, clash, error, iff.mpr clash⟩

-----------------------------------------------------------------------------------------
-- A second run
-----------------------------------------------------------------------------------------

/-- Keys come to be names, with marks or without. -/
theorem keys_of_normalize (h : ps.normalize = .ok ps') : Keyed.keys ps' = ps.names := by
  rw [eq_normals_of_normalize h, keys_normals]

/-- Properties that have been normalized stay as they are exactly if no key is left that says that a
property may be left out. -/
theorem normalize_eq_self_iff (h : ps.normalize = .ok ps')
    : ps'.normalize = .ok ps' ↔ ∀ key ∈ Keyed.keys ps', ¬OptionalKey key := by
  obtain rfl := eq_normals_of_normalize h
  constructor
  · intro same key member
    have keys : Keyed.keys ps.normals = (Keyed.keys ps.normals).map nameOf := by
      conv_lhs => rw [eq_normals_of_normalize same, keys_normals, names]
      simp [Keyed.keys]
    rw [← nameOf_eq_self_iff]
    exact (List.map_inj_left.mp (keys.symm.trans (List.map_id _).symm)) key member
  · intro plain
    rw [normalize_of_plain plain]
    refine congrArg Except.ok
      (Eq.trans (List.map_congr_left fun entry member => ?_) (List.map_id _))
    have key := plain entry.1 (List.mem_map_of_mem member)
    have stays : entry.2.normal entry.1 = entry.2 := by
      obtain ⟨before, -, rfl⟩ := List.mem_map.mp member
      exact normal_of_not_optionalKey key rfl
    rw [nameOf_of_not_optionalKey key, stays]
    rfl

/-- What is left of keys that say that a property may be left out. -/
theorem forall_not_optionalKey_of_normalize (h : ps.normalize = .ok ps')
    : (∀ key ∈ Keyed.keys ps', ¬OptionalKey key)
      ↔ ∀ key ∈ Keyed.keys ps, ∀ name, key ≠ name ++ "??" := by
  have names : ps.names = (Keyed.keys ps).map nameOf := by simp [Properties.names, Keyed.keys]
  rw [keys_of_normalize h, names, List.forall_mem_map]
  simp only [optionalKey_nameOf_iff, not_exists]

/-- Normal properties are named by their keys. -/
theorem name_of_normalize (h : ps.normalize = .ok ps') {key : String} {p : Property}
    (member : (key, p) ∈ ps')
    : p.name = key := by
  obtain rfl := eq_normals_of_normalize h
  obtain ⟨before, -, same⟩ := List.mem_map.mp member
  cases same
  rfl

/-- Once properties have been normalized, they stay as they are if they are normalized again, and no
name ends with a question mark, both exactly if no key ended with two. -/
theorem normalize_again_iff (h : ps.normalize = .ok ps')
    : (ps'.normalize = .ok ps' ↔ ∀ key ∈ Keyed.keys ps, ∀ name, key ≠ name ++ "??")
      ∧ ((∀ key p, (key, p) ∈ ps' → ¬OptionalKey p.name)
        ↔ ∀ key ∈ Keyed.keys ps, ∀ name, key ≠ name ++ "??") := by
  have left := forall_not_optionalKey_of_normalize h
  refine ⟨(normalize_eq_self_iff h).trans left, Iff.trans ?_ left⟩
  constructor
  · intro plain key member
    obtain ⟨⟨_, p⟩, entry, rfl⟩ := List.mem_map.mp member
    exact name_of_normalize h entry ▸ plain _ p entry
  · intro plain key p member
    rw [name_of_normalize h member]
    exact plain key (List.mem_map_of_mem member)

/-- A property whose key ends with two question marks, and one whose key ends with one. -/
def notes : Properties :=
  [("title?", .ofName "title?" "string"), ("why??", .ofName "why??" "string")]

/-- The notes become normal the first time. -/
theorem normalize_notes : notes.normalize = .ok notes.normals :=
  (normalize_eq_ok_iff (by decide)).mpr ⟨by decide +kernel, rfl⟩

/-- A second run takes off the second mark, so it changes something. -/
theorem normalize_again_iff_notes
    : ∃ ps, notes.normalize = .ok ps ∧ ps.normalize ≠ .ok ps
        ∧ ∃ key p, (key, p) ∈ ps ∧ OptionalKey p.name := by
  obtain ⟨stays, ends⟩ := normalize_again_iff normalize_notes
  have marked : ¬∀ key ∈ Keyed.keys notes, ∀ name, key ≠ name ++ "??" :=
    fun none => none "why??" (by decide +kernel) "why" (by decide +kernel)
  have left := mt ends.mp marked
  push Not at left
  exact ⟨_, normalize_notes, mt stays.mp marked, left⟩

/-- Not all is done with one run: a name may be left that ends with a question mark. -/
theorem not_normalize_again
    : ¬∀ ps ps' : Properties, (Keyed.keys ps).Nodup → ps.normalize = .ok ps'
        → ps'.normalize = .ok ps' ∧ ∀ key p, (key, p) ∈ ps' → ¬OptionalKey p.name := by
  intro done
  obtain ⟨-, plain⟩ := done notes _ (by decide +kernel) normalize_notes
  exact plain _ _ (List.mem_cons_of_mem _ List.mem_cons_self) ⟨"why", by decide +kernel⟩

end Properties

end Raml
