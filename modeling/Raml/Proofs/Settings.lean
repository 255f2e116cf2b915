import Raml.Proofs.Json.Skipped
import Raml.Proofs.Json.Spelling
import Raml.Settings.Reader

/-! What settings are read from: one JSON value, blanks before it and anything behind it.

The value is an object or a list. Whatever it gives has the value in the end that is written there,
and whatever it does not give has its default. Names that mean nothing are not put up with, except in
check options.

What a text gives is known by names and the texts of values, and what is meant is put in words of the
grammar: a truth value is a word, a number is its digits, and a path is a string or the word for
nothing.
-/

namespace Raml.Settings

open Json (Cursor)
open Json.Cursor (byte isBlank rest_of_peek? rest_of_word blanks_skipBlanks passed_string passed_number
  passed_skipValue passed_nextKey passed_nextItem passed_colon passed_endList passed_endObject)
open Json.Grammar

variable {α β σ : Type} {c c' : Cursor}

-----------------------------------------------------------------------------------------
-- What is given
-----------------------------------------------------------------------------------------

/-- Names and values as they are written in the entries of an object. -/
def Named : List (Bytes × Bytes) → List (String × Bytes) → Prop :=
  List.Forall₂ fun entry g => Text entry.1 g.1 ∧ g.2 = entry.2

/-- The values that a record gives, as they are written: those of an object have their keys for
names, and those of a list have the `names` in order. -/
inductive Gives (names : List String) : Bytes → List (String × Bytes) → Prop where
  | object {entries : List (Bytes × Bytes)} {given : List (String × Bytes)} {tail : Bytes}
      (isTail : Tail .object false entries tail) (named : Named entries given)
      : Gives names (byte '{' :: tail) given
  | list {entries : List (Bytes × Bytes)} {tail : Bytes} (isTail : Tail .list false entries tail)
      (few : entries.length ≤ names.length)
      : Gives names (byte '[' :: tail) (names.zip (entries.map Prod.snd))

/-- What gives something is a value. -/
theorem Gives.value {names : List String} {text : Bytes} {given : List (String × Bytes)}
    (h : Gives names text given)
    : IsValue text := by
  cases h with
  | object isTail _ => exact .bracket isTail
  | list isTail _ => exact .bracket isTail

/-- A record gives no value of the `names` twice, and no others unless it is open. -/
structure Record (names : List String) (isOpen : Bool) (text : Bytes)
    (given : List (String × Bytes)) : Prop where
  gives : Gives names text given
  known : isOpen = false → ∀ name ∈ Keyed.keys given, name ∈ names
  once : ((Keyed.keys given).filter (· ∈ names)).Nodup

/-- The value is what is meant by what is given for a name, or it is the default. -/
def Holds (means : Bytes → α → Prop) (default : α) (given : List (String × Bytes)) (name : String)
    (a : α) : Prop :=
  match Keyed.get? given name with
  | some text => means text a
  | none => a = default

inductive MeansBool : Bytes → Bool → Prop where
  | true : MeansBool ("true".toList.map byte) true
  | false : MeansBool ("false".toList.map byte) false

inductive MeansPath : Bytes → Option Path → Prop where
  | none : MeansPath ("null".toList.map byte) none
  | some {text : Bytes} {s : String} (h : Text text s) : MeansPath text (some ⟨s⟩)

def MeansInt64 (text : Bytes) (w : Int64) : Prop := Whole text w.toInt

/-- The names of the check options. -/
def checkNames : List String :=
  ["allowIntegerToBeNumber", "allowArrayToBeNull", "allowRequiredPropertyToBeEmpty"]

/-- Check options as they are given, or by default. -/
structure GivenCheck (given : List (String × Bytes)) (o : CheckOptions) : Prop where
  integerAsNumber : Holds MeansBool false given "allowIntegerToBeNumber" o.integerAsNumber
  nullAsArray : Holds MeansBool false given "allowArrayToBeNull" o.nullAsArray
  emptyRequired : Holds MeansBool false given "allowRequiredPropertyToBeEmpty" o.emptyRequired

/-- A record of check options, which may be open. -/
def MeansCheck (isOpen : Bool) (text : Bytes) (o : CheckOptions) : Prop :=
  ∃ given, Record checkNames isOpen text given ∧ GivenCheck given o

/-- The names of the settings. -/
def names : List String :=
  ["checkRamlVersion", "checkValueOptions", "ignoreUnusedAnnotation", "ignoreUnusedTrait",
    "cacheDirectory", "errorTraceDistance"]

/-- Settings as they are given, or by default. -/
structure GivenSettings (checkIsOpen : Bool) (given : List (String × Bytes)) (s : Settings)
    : Prop where
  checkVersion : Holds MeansBool false given "checkRamlVersion" s.checkVersion
  check : Holds (MeansCheck checkIsOpen) {} given "checkValueOptions" s.check
  ignoreUnusedAnnotations
    : Holds MeansBool false given "ignoreUnusedAnnotation" s.ignoreUnusedAnnotations
  ignoreUnusedTraits : Holds MeansBool false given "ignoreUnusedTrait" s.ignoreUnusedTraits
  cacheDirectory : Holds MeansPath none given "cacheDirectory" s.cacheDirectory
  excerptDistance : Holds MeansInt64 4 given "errorTraceDistance" s.excerptDistance

/-- A record of settings, where that of check options may be open. -/
def MeansSettings (checkIsOpen : Bool) (text : Bytes) (s : Settings) : Prop :=
  ∃ given, Record names false text given ∧ GivenSettings checkIsOpen given s

-----------------------------------------------------------------------------------------
-- Values
-----------------------------------------------------------------------------------------

theorem lift_eq_ok_iff {x : Except Json.Failure α} {a : α} : lift x = .ok a ↔ x = .ok a := by
  cases x with
  | ok b => exact Iff.rfl.trans ⟨fun h => by cases h; rfl, fun h => by cases h; rfl⟩
  | error e => exact ⟨nofun, nofun⟩

/-- The step is a matter of errors only. -/
theorem behindStep_eq_ok_iff {step : Step} {x : Except Trouble α} {a : α}
    : behindStep step x = .ok a ↔ x = .ok a :=
  mapError_eq_ok_iff

/-- The place is a matter of errors only. -/
theorem place_eq_ok_iff {closing : Char} {x : Except Trouble α} {a : α}
    : place closing x = .ok a ↔ x = .ok a :=
  mapError_eq_ok_iff

theorem wrong_ne_ok {expected : String} {a : α} : wrong expected c ≠ .ok a := by
  intro h
  obtain ⟨_, -, h⟩ := bind_eq_ok_iff.mp h
  cases h

/-- What is read begins behind blanks. -/
theorem next_eq_ok {read : UInt8 → Read α} {a : α} (h : next read c = .ok (a, c'))
    : ∃ b, c.skipBlanks.peek? = some b ∧ read b c.skipBlanks = .ok (a, c') := by
  unfold next at h
  simp only at h
  split at h
  · cases h
  · next b next => exact ⟨b, next, h⟩

/-- Behind blanks, one value is passed when something is read, and it means what is read. -/
def Reads (read : Read α) (means : Bytes → α → Prop) : Prop :=
  ∀ {c a c'}, read c = .ok (a, c')
    → ∃ text, IsValue text ∧ means text a ∧ c.skipBlanks.rest = text ++ c'.rest

/-- The letters behind the first one of a word are passed. -/
theorem passed_word {b : UInt8} {letter : Char} {letters : List Char} (next : c.peek? = some b)
    (same : b = byte letter) {a a' : α}
    (h : (do return (a, ← lift (Cursor.word letters c.advance)) : Except Trouble (α × Cursor))
      = .ok (a', c'))
    : a' = a ∧ c.rest = (letter :: letters).map byte ++ c'.rest := by
  obtain ⟨c₁, word, h⟩ := bind_eq_ok_iff.mp h
  cases h
  refine ⟨rfl, ?_⟩
  rw [rest_of_peek? next, same, rest_of_word (lift_eq_ok_iff.mp word)]
  rfl

/-- A truth value is a word. -/
theorem reads_bool : Reads bool MeansBool := by
  intro c a c' h
  obtain ⟨b, next, h⟩ := next_eq_ok h
  split at h
  · next same =>
      obtain ⟨rfl, split⟩ := passed_word next same h
      exact ⟨_, .word (w := "true") (by decide), .true, split⟩
  split at h
  · next same =>
      obtain ⟨rfl, split⟩ := passed_word next same h
      exact ⟨_, .word (w := "false") (by decide), .false, split⟩
  · exact absurd h wrong_ne_ok

/-- A path is a string, or the word for nothing. -/
theorem reads_path? : Reads path? MeansPath := by
  intro c a c' h
  obtain ⟨b, next, h⟩ := next_eq_ok h
  split at h
  · next same =>
      obtain ⟨rfl, split⟩ := passed_word next same h
      exact ⟨_, .word (w := "null") (by decide), .none, split⟩
  split at h
  · next same =>
      obtain ⟨⟨s, c₁⟩, read, h⟩ := bind_eq_ok_iff.mp h
      cases h
      obtain ⟨text, isText, split⟩ := passed_string (lift_eq_ok_iff.mp read)
      refine ⟨text, ?_, .some isText, ?_⟩
      · cases isText with
        | mk means _ => exact .string means.body
      · rw [rest_of_peek? next, same, split]
  · exact absurd h wrong_ne_ok

/-- What starts like a number and is found to be whole is written as a whole number. -/
theorem whole_of_found {b : UInt8} {i : Int} (start : startsNumber b = true)
    (next : c.peek? = some b) (h : found c = .ok (.int i, c'))
    : ∃ text, Whole text i ∧ c.rest = text ++ c'.rest := by
  have read : Cursor.value .all 0 () c = .ok (.int i, c') := by
    unfold found at h
    split at h
    · cases h
    split at h
    · cases h
    split at h
    · cases h
    obtain ⟨⟨j, c₁⟩, read, h⟩ := bind_eq_ok_iff.mp h
    cases j with
    | int k =>
        cases h
        exact read
    | null | bool | float | str | arr | obj => cases h
  obtain ⟨_ | ⟨first, rest⟩, p⟩ := c
  · cases next
  cases next
  by_cases minus : b = byte '-'
  · cases minus
    rw [Json.value_minus] at read
    obtain ⟨ds, leading, split, rfl⟩ := passed_number read
    exact ⟨_, .negative leading, congrArg (List.cons _) split⟩
  · have digit : Json.Cursor.isDigit b = true := by
      simpa [startsNumber, minus, Json.Cursor.isDigit] using start
    rw [Json.value_digit digit] at read
    obtain ⟨ds, leading, split, rfl⟩ := passed_number read
    exact ⟨_, .natural leading, split⟩

/-- A number is its digits, with a sign in front or without. -/
theorem reads_int64 : Reads int64 MeansInt64 := by
  intro c a c' h
  obtain ⟨b, next, h⟩ := next_eq_ok h
  split at h
  · next start =>
      obtain ⟨⟨found, c₁⟩, read, h⟩ := bind_eq_ok_iff.mp h
      cases found with
      | int i =>
          obtain ⟨text, whole, split⟩ := whole_of_found start next (lift_eq_ok_iff.mp read)
          simp only at h
          split at h
          · next w word =>
              cases h
              exact ⟨text, .number whole.number, by rwa [MeansInt64, int64?_eq_some_iff.mp word],
                split⟩
          · cases h
      | unit | null | bool | float | str | sequence | map => cases h
  · exact absurd h wrong_ne_ok

-----------------------------------------------------------------------------------------
-- Fields
-----------------------------------------------------------------------------------------

namespace Field

/-- Reading the value of a field passes one value. -/
def Passes (f : Field σ) : Prop :=
  ∀ {s c s' c'}, f.read s c = .ok (s', c')
    → ∃ text, IsValue text ∧ c.skipBlanks.rest = text ++ c'.rest

/-- Of a whole, a field is of concern to a part of it if it has a name, and then the part is what is
meant. Other fields leave the part as it is. -/
def Concerns (f : Field σ) (name : String) (part : σ → α) (means : Bytes → α → Prop) : Prop :=
  ∀ {s c s' c'}, f.read s c = .ok (s', c')
    → if f.key = name then ∃ text, means text (part s') ∧ c.skipBlanks.rest = text ++ c'.rest
      else part s' = part s

variable {key name : String} {read : Read β} {set : σ → β → σ} {means : Bytes → β → Prop}

theorem read_of_eq_ok {s s' : σ} (h : (Field.of key read set).read s c = .ok (s', c'))
    : ∃ a, read c = .ok (a, c') ∧ s' = set s a := by
  obtain ⟨⟨a, c₁⟩, read, h⟩ := bind_eq_ok_iff.mp h
  cases h
  exact ⟨a, read, rfl⟩

/-- A field passes what its reading passes. -/
theorem passes_of (reads : Reads read means) : (Field.of key read set).Passes := by
  intro s c s' c' h
  obtain ⟨a, read, -⟩ := read_of_eq_ok h
  obtain ⟨text, isValue, -, split⟩ := reads read
  exact ⟨text, isValue, split⟩

/-- A field is of concern to what it sets. -/
theorem concerns_own {part : σ → β} (reads : Reads read means) (own : ∀ s a, part (set s a) = a)
    : (Field.of name read set).Concerns name part means := by
  intro s c s' c' h
  obtain ⟨a, read, rfl⟩ := read_of_eq_ok h
  obtain ⟨text, -, means, split⟩ := reads read
  exact (if_pos rfl).mpr ⟨text, by rwa [own], split⟩

/-- A field is of no concern to what it leaves as it is. -/
theorem concerns_other {part : σ → α} {means : Bytes → α → Prop} (other : key ≠ name)
    (same : ∀ s a, part (set s a) = part s)
    : (Field.of key read set).Concerns name part means := by
  intro s c s' c' h
  obtain ⟨a, -, rfl⟩ := read_of_eq_ok h
  exact (if_neg other).mpr (same s a)

end Field

section Records

variable {shape : Shape σ}

/-- The keys of the fields. -/
def Shape.keys (shape : Shape σ) : List String := shape.fields.map Field.key

/-- A name that a field has stands in front of those behind it. -/
theorem filter_keys_cons {key : String} {text : Bytes} {given : List (String × Bytes)}
    (listed : key ∈ shape.keys)
    : (Keyed.keys ((key, text) :: given)).filter (· ∈ shape.keys)
      = key :: (Keyed.keys given).filter (· ∈ shape.keys) :=
  List.filter_cons_of_pos (decide_eq_true listed)

/-- What is given for fields is read into a whole, one after the other. What is given for other names
is not. -/
inductive Applied (shape : Shape σ) : List (String × Bytes) → σ → σ → Prop where
  | nil (s : σ) : Applied shape [] s s
  | unknown {key : String} {text : Bytes} {given : List (String × Bytes)} {s s' : σ}
      (h : key ∉ shape.keys) (rest : Applied shape given s s')
      : Applied shape ((key, text) :: given) s s'
  | field {f : Field σ} {text : Bytes} {given : List (String × Bytes)} {s s₁ s' : σ} {c c' : Cursor}
      (member : f ∈ shape.fields) (read : f.read s c = .ok (s₁, c'))
      (split : c.skipBlanks.rest = text ++ c'.rest) (rest : Applied shape given s₁ s')
      : Applied shape ((f.key, text) :: given) s s'

/-- A part of the whole is what is meant by what is given for its name, or it is as it was. -/
theorem Applied.holds {given : List (String × Bytes)} {s s' : σ} {name : String} {part : σ → α}
    {means : Bytes → α → Prop} (applied : Applied shape given s s') (known : name ∈ shape.keys)
    (once : ((Keyed.keys given).filter (· ∈ shape.keys)).Nodup)
    (each : ∀ f ∈ shape.fields, f.Concerns name part means)
    : Holds means (part s) given name (part s') := by
  induction applied with
  | nil => rfl
  | @unknown key text given s s' h rest ih =>
      have other : key ≠ name := fun same => h (same ▸ known)
      rw [Holds, Keyed.get?_cons, if_neg other]
      exact ih (by simpa [Keyed.keys, h] using once)
  | @field f text given s s₁ s' c c' member read split rest ih =>
      have listed : f.key ∈ shape.keys := List.mem_map_of_mem member
      rw [filter_keys_cons listed] at once
      obtain ⟨new, once⟩ := List.nodup_cons.mp once
      have later := ih once
      have step := each f member read
      rw [Holds, Keyed.get?_cons]
      by_cases same : f.key = name
      · rw [if_pos same] at step ⊢
        obtain ⟨text', meant, split''⟩ := step
        have absent : Keyed.get? given name = none :=
          Keyed.get?_eq_none_iff.mpr fun inside =>
            new (List.mem_filter.mpr ⟨same ▸ inside, decide_eq_true listed⟩)
        rw [Holds, absent] at later
        have text := List.append_cancel_right (split''.symm.trans split)
        rwa [later, ← text]
      · rw [if_neg same] at step ⊢
        rwa [Holds, step] at later

-----------------------------------------------------------------------------------------
-- Objects and lists
-----------------------------------------------------------------------------------------

/-- What is given is read into a whole, where the `seen` names have been given before. -/
structure Collected (shape : Shape σ) (seen : List String) (given : List (String × Bytes))
    (s s' : σ) : Prop where
  applied : Applied shape given s s'
  known : shape.isOpen = false → ∀ name ∈ Keyed.keys given, name ∈ shape.keys
  once : ((Keyed.keys given).filter (· ∈ shape.keys)).Nodup
  new : ∀ name ∈ Keyed.keys given, name ∈ shape.keys → name ∉ seen

namespace Collected

variable {seen : List String} {given : List (String × Bytes)} {s s₁ s' : σ} {text : Bytes}

theorem nil : Collected shape seen [] s s := ⟨.nil s, nofun, List.nodup_nil, nofun⟩

/-- What is given for another name changes nothing, if that is allowed. -/
theorem unknown {key : String} (isOpen : shape.isOpen = true) (h : key ∉ shape.keys)
    (rest : Collected shape seen given s s')
    : Collected shape seen ((key, text) :: given) s s' where
  applied := .unknown h rest.applied
  known closed := absurd closed (by rw [isOpen]; exact Bool.false_ne_true.symm)
  once := by
    have skipped : (Keyed.keys ((key, text) :: given)).filter (· ∈ shape.keys)
        = (Keyed.keys given).filter (· ∈ shape.keys) :=
      List.filter_cons_of_neg (by simpa using h)
    rw [skipped]
    exact rest.once
  new name member listed := by
    rcases List.mem_cons.mp member with rfl | later
    · exact absurd listed h
    · exact rest.new name later listed

/-- What is given for a field sets it, unless the field has been given before. -/
theorem field {f : Field σ} {c c' : Cursor} (member : f ∈ shape.fields) (new : f.key ∉ seen)
    (read : f.read s c = .ok (s₁, c')) (split : c.skipBlanks.rest = text ++ c'.rest)
    (rest : Collected shape (f.key :: seen) given s₁ s')
    : Collected shape seen ((f.key, text) :: given) s s' where
  applied := .field member read split rest.applied
  known closed := List.forall_mem_cons.mpr ⟨List.mem_map_of_mem member, rest.known closed⟩
  once := by
    have listed : f.key ∈ shape.keys := List.mem_map_of_mem member
    rw [filter_keys_cons listed]
    refine List.nodup_cons.mpr ⟨fun inside => ?_, rest.once⟩
    exact rest.new f.key (List.mem_filter.mp inside).1 listed List.mem_cons_self
  new name inside listed := by
    rcases List.mem_cons.mp inside with rfl | later
    · exact new
    · exact fun seen => rest.new name later listed (List.mem_cons_of_mem _ seen)

end Collected

/-- A member and the tail behind it are a tail. -/
theorem tail_of_member {first : Bool} {c₁ c₂ c₃ c₄ : Cursor} {key : String} {value tail : Bytes}
    {entries : List (Bytes × Bytes)} (next : c.nextKey first = .ok (some c₁))
    (string : c₁.string = .ok (key, c₂)) (colon : c₂.colon = .ok c₃) (isValue : IsValue value)
    (passed : c₃.skipBlanks.rest = value ++ c₄.rest) (isTail : Tail .object true entries tail)
    (rest : c₄.rest = tail ++ c'.rest)
    : ∃ text tail', Text text key ∧ Tail .object (!first) ((text, value) :: entries) tail'
      ∧ c.rest = tail' ++ c'.rest := by
  obtain ⟨gap, isGap, split₁⟩ := passed_nextKey next
  obtain ⟨text, isText, split₂⟩ := passed_string string
  obtain ⟨blanks, areBlanks, split₃⟩ := passed_colon colon
  obtain ⟨blanks', areBlanks', split₄⟩ := blanks_skipBlanks c₃
  obtain ⟨body, isBody, rfl⟩ : ∃ body, Body body ∧ text = quoted body := by
    cases isText with
    | mk means _ => exact ⟨_, means.body, rfl⟩
  refine ⟨_, _, isText, .entry isGap (.object isBody areBlanks) areBlanks' isValue isTail, ?_⟩
  rw [split₁, split₂, split₃, split₄, passed, rest]
  simp

/-- Members are passed up to the brace that closes the object, and read into the whole. -/
theorem members_eq_ok (passes : ∀ f ∈ shape.fields, f.Passes) {fuel : Nat} {first : Bool}
    {seen : List String} {s s' : σ} {c c₁ c' : Cursor}
    (h : members shape fuel first seen s c = .ok (s', c₁)) (closed : c₁.endObject = .ok c')
    : ∃ entries given tail, Tail .object (!first) entries tail ∧ Named entries given
      ∧ c.rest = tail ++ c'.rest ∧ Collected shape seen given s s' := by
  induction fuel generalizing first seen s c with
  | zero => cases h
  | succ fuel ih =>
      rw [members] at h
      split at h
      · cases h
      · cases h
        obtain ⟨blanks, areBlanks, split⟩ := blanks_skipBlanks c
        obtain ⟨blanks', areBlanks', split'⟩ := passed_endObject closed
        refine ⟨[], [], _, .close (List.forall_mem_append.mpr ⟨areBlanks, areBlanks'⟩), .nil, ?_,
          .nil⟩
        rw [split, split']
        simp [Json.Cursor.Bracket.closing]
      next c₂ next =>
      split at h
      · cases h
      next key c₃ string =>
      split at h
      · next unknown =>
          split at h
          · next isOpen =>
              obtain ⟨c₄, colon, h⟩ := bind_eq_ok_iff.mp h
              obtain ⟨c₅, skipped, h⟩ := bind_eq_ok_iff.mp h
              obtain ⟨value, isValue, passed⟩ :=
                passed_skipValue (lift_eq_ok_iff.mp (behindStep_eq_ok_iff.mp skipped))
              obtain ⟨entries, given, tail, isTail, named, rest, collected⟩ := ih h
              obtain ⟨text, tail', isText, isTail', split⟩ :=
                tail_of_member next string (lift_eq_ok_iff.mp colon) isValue passed isTail rest
              have new : key ∉ shape.keys := by simpa [Shape.keys] using unknown
              exact ⟨_, _, tail', isTail', .cons ⟨isText, rfl⟩ named, split,
                .unknown isOpen new collected⟩
          · cases h
      · next f found =>
          split at h
          · cases h
          · next new =>
              obtain ⟨c₄, colon, h⟩ := bind_eq_ok_iff.mp h
              obtain ⟨⟨s₁, c₅⟩, behind, h⟩ := bind_eq_ok_iff.mp h
              have read : f.read s c₄ = .ok (s₁, c₅) := behindStep_eq_ok_iff.mp behind
              have member : f ∈ shape.fields := List.mem_of_find?_eq_some found
              have named : f.key = key := by simpa using List.find?_some found
              cases named
              obtain ⟨value, isValue, passed⟩ := passes f member read
              obtain ⟨entries, given, tail, isTail, named, rest, collected⟩ := ih h
              obtain ⟨text, tail', isText, isTail', split⟩ :=
                tail_of_member next string (lift_eq_ok_iff.mp colon) isValue passed isTail rest
              exact ⟨_, _, tail', isTail', .cons ⟨isText, rfl⟩ named, split,
                .field member (by simpa using new) read passed collected⟩

/-- Items are passed up to the bracket that closes the list, and read into the whole, one for each
field as long as there are any. -/
theorem items_eq_ok (passes : ∀ f ∈ shape.fields, f.Passes) {index : Nat} {first : Bool}
    {fields : List (Field σ)} (within : fields ⊆ shape.fields) {s s' : σ} {c c₁ c' : Cursor}
    (h : items index first fields s c = .ok (s', c₁)) (closed : c₁.endList = .ok c')
    : ∃ entries tail, Tail .list (!first) entries tail ∧ entries.length ≤ fields.length
      ∧ c.rest = tail ++ c'.rest
      ∧ Applied shape ((fields.map Field.key).zip (entries.map Prod.snd)) s s' := by
  induction fields generalizing index first s c with
  | nil =>
      cases h
      obtain ⟨blanks, areBlanks, split⟩ := passed_endList closed
      exact ⟨[], _, .close areBlanks, Nat.le_refl _,
        by rw [split]; simp [Json.Cursor.Bracket.closing], .nil s'⟩
  | cons f fields ih =>
      obtain ⟨member, within⟩ := List.cons_subset.mp within
      obtain ⟨next?, next, h⟩ := bind_eq_ok_iff.mp h
      cases next? with
      | none =>
          cases h
          obtain ⟨blanks, areBlanks, split⟩ := passed_endList closed
          exact ⟨[], _, .close areBlanks, Nat.zero_le _,
            by rw [split]; simp [Json.Cursor.Bracket.closing], .nil s'⟩
      | some c₂ =>
          obtain ⟨⟨s₁, c₃⟩, behind, h⟩ := bind_eq_ok_iff.mp h
          have read : f.read s c₂ = .ok (s₁, c₃) := behindStep_eq_ok_iff.mp behind
          obtain ⟨gap, isGap, split⟩ := passed_nextItem (lift_eq_ok_iff.mp next)
          obtain ⟨blanks, areBlanks, split'⟩ := blanks_skipBlanks c₂
          obtain ⟨value, isValue, passed⟩ := passes f member read
          obtain ⟨entries, tail, isTail, few, rest, applied⟩ := ih within h
          refine ⟨([], value) :: entries, _, .entry isGap .list areBlanks isValue isTail,
            Nat.succ_le_succ few, ?_, .field member read passed applied⟩
          rw [split, split', passed, rest]
          simp

/-- Values in a list have the first names, in order. -/
theorem keys_zip_sublist (names : List String) (values : List α)
    : (Keyed.keys (names.zip values)).Sublist names := by
  induction names generalizing values with
  | nil => exact List.Sublist.refl []
  | cons name names ih =>
      cases values with
      | nil => exact List.nil_sublist _
      | cons value values => exact (ih values).cons_cons name

/-- A record is passed, and what it gives is read into the whole that it starts from. -/
theorem record_eq_ok (passes : ∀ f ∈ shape.fields, f.Passes) (distinct : shape.keys.Nodup)
    {default s : σ} (h : record shape default c = .ok (s, c'))
    : ∃ text given, Record shape.keys shape.isOpen text given ∧ Applied shape given default s
      ∧ c.skipBlanks.rest = text ++ c'.rest := by
  obtain ⟨b, next, h⟩ := next_eq_ok h
  have opened := rest_of_peek? next
  split at h
  · next same =>
      obtain ⟨⟨s₁, c₁⟩, read, h⟩ := bind_eq_ok_iff.mp h
      obtain ⟨c₂, closed, h⟩ := bind_eq_ok_iff.mp h
      cases h
      obtain ⟨entries, given, tail, isTail, named, split, collected⟩ :=
        members_eq_ok passes (place_eq_ok_iff.mp read) (lift_eq_ok_iff.mp closed)
      exact ⟨_, given, ⟨.object isTail named, collected.known, collected.once⟩, collected.applied,
        by rw [opened, same, split]; rfl⟩
  split at h
  · next same =>
      obtain ⟨⟨s₁, c₁⟩, read, h⟩ := bind_eq_ok_iff.mp h
      obtain ⟨c₂, closed, h⟩ := bind_eq_ok_iff.mp h
      cases h
      obtain ⟨entries, tail, isTail, few, split, applied⟩ :=
        items_eq_ok passes (List.Subset.refl _) (place_eq_ok_iff.mp read) (lift_eq_ok_iff.mp closed)
      have few : entries.length ≤ shape.keys.length := by rwa [Shape.keys, List.length_map]
      have front : (Keyed.keys (shape.keys.zip (entries.map Prod.snd))).Sublist shape.keys :=
        keys_zip_sublist _ _
      exact ⟨_, _, ⟨.list isTail few, fun _ => front.subset, (front.nodup distinct).filter _⟩,
        applied, by rw [opened, same, split]; rfl⟩
  · exact absurd h wrong_ne_ok

end Records

-----------------------------------------------------------------------------------------
-- Settings
-----------------------------------------------------------------------------------------

section

attribute [local simp] Field.concerns_own Field.concerns_other reads_bool reads_int64
  reads_path?

/-- Check options are a record that is open. -/
theorem reads_checkOptions : Reads checkOptions (MeansCheck true) := by
  intro c o c' h
  have passes : ∀ f ∈ checkShape.fields, f.Passes := by
    simp only [checkShape, List.forall_mem_cons]
    exact ⟨Field.passes_of reads_bool, Field.passes_of reads_bool, Field.passes_of reads_bool,
      List.forall_mem_nil _⟩
  obtain ⟨text, given, isRecord, applied, split⟩ := record_eq_ok passes (by decide) h
  have integerAsNumber : ∀ f ∈ checkShape.fields,
      f.Concerns "allowIntegerToBeNumber" CheckOptions.integerAsNumber MeansBool := by
    simp [checkShape]
  have nullAsArray : ∀ f ∈ checkShape.fields,
      f.Concerns "allowArrayToBeNull" CheckOptions.nullAsArray MeansBool := by
    simp [checkShape]
  have emptyRequired : ∀ f ∈ checkShape.fields,
      f.Concerns "allowRequiredPropertyToBeEmpty" CheckOptions.emptyRequired MeansBool := by
    simp [checkShape]
  exact ⟨text, isRecord.gives.value, ⟨given, isRecord,
    applied.holds (by decide) isRecord.once integerAsNumber,
    applied.holds (by decide) isRecord.once nullAsArray,
    applied.holds (by decide) isRecord.once emptyRequired⟩, split⟩

/-- Settings are a record that is not open. -/
theorem reads_settings : Reads (record shape {}) (MeansSettings true) := by
  intro c s c' h
  have passes : ∀ f ∈ shape.fields, f.Passes := by
    simp only [shape, List.forall_mem_cons]
    exact ⟨Field.passes_of reads_bool, Field.passes_of reads_checkOptions, Field.passes_of reads_bool,
      Field.passes_of reads_bool, Field.passes_of reads_path?, Field.passes_of reads_int64,
      List.forall_mem_nil _⟩
  obtain ⟨text, given, isRecord, applied, split⟩ := record_eq_ok passes (by decide) h
  have checkVersion : ∀ f ∈ shape.fields,
      f.Concerns "checkRamlVersion" Settings.checkVersion MeansBool := by
    simp [shape]
  have check : ∀ f ∈ shape.fields,
      f.Concerns "checkValueOptions" Settings.check (MeansCheck true) := by
    simp [shape, reads_checkOptions]
  have ignoreUnusedAnnotations : ∀ f ∈ shape.fields,
      f.Concerns "ignoreUnusedAnnotation" Settings.ignoreUnusedAnnotations MeansBool := by
    simp [shape]
  have ignoreUnusedTraits : ∀ f ∈ shape.fields,
      f.Concerns "ignoreUnusedTrait" Settings.ignoreUnusedTraits MeansBool := by
    simp [shape]
  have cacheDirectory : ∀ f ∈ shape.fields,
      f.Concerns "cacheDirectory" Settings.cacheDirectory MeansPath := by
    simp [shape]
  have excerptDistance : ∀ f ∈ shape.fields,
      f.Concerns "errorTraceDistance" Settings.excerptDistance MeansInt64 := by
    simp [shape]
  exact ⟨text, isRecord.gives.value, ⟨given, isRecord,
    applied.holds (by decide) isRecord.once checkVersion,
    applied.holds (by decide) isRecord.once check,
    applied.holds (by decide) isRecord.once ignoreUnusedAnnotations,
    applied.holds (by decide) isRecord.once ignoreUnusedTraits,
    applied.holds (by decide) isRecord.once cacheDirectory,
    applied.holds (by decide) isRecord.once excerptDistance⟩, split⟩

end

/-- Settings are read from one JSON value with blanks before it. It gives none of them twice, and no
others; whatever it gives has the value that is written there, and the rest has its default. What
follows the value is not read, nor is what check options give under names that are not theirs. -/
theorem means_of_read {bytes : Bytes} {s : Settings} (h : read bytes = .ok s)
    : ∃ blanks text more, bytes = blanks ++ (text ++ more) ∧ Blanks blanks ∧ IsValue text
      ∧ MeansSettings true text s := by
  unfold read at h
  split at h
  · next s c result =>
      cases h
      obtain ⟨text, isValue, means, split⟩ := reads_settings result
      obtain ⟨blanks, areBlanks, start⟩ := blanks_skipBlanks ⟨bytes, {}⟩
      exact ⟨blanks, text, c.rest, by rw [← split, ← start], areBlanks, isValue, means⟩
  · cases h
  · cases h

/-- Settings in a list of one, with something behind it. -/
theorem means_of_read_list
    : read ("[true] x".toList.map byte) = .ok { checkVersion := true }
      ∧ ∃ blanks text more, "[true] x".toList.map byte = blanks ++ (text ++ more) ∧ Blanks blanks
        ∧ IsValue text ∧ MeansSettings true text { checkVersion := true } :=
  have result : read ("[true] x".toList.map byte) = .ok { checkVersion := true } := rfl
  ⟨result, means_of_read result⟩

/-- Before what is no blank there are none. -/
theorem nil_of_blanks {blanks rest more : Bytes} {b : UInt8} (areBlanks : Blanks blanks)
    (ink : isBlank b = false) (split : b :: more = blanks ++ rest)
    : blanks = [] := by
  cases blanks with
  | nil => rfl
  | cons first blanks =>
      cases (List.cons.inj split).1
      exact absurd (areBlanks b List.mem_cons_self) (by rw [ink]; exact Bool.false_ne_true)

/-- It is not true that nothing but blanks follows, or that check options hold no other names. -/
theorem not_read_whole
    : ¬∀ (bytes : Bytes) (s : Settings), read bytes = .ok s
        → ∃ blanks text more, bytes = blanks ++ (text ++ more) ∧ Blanks blanks ∧ Blanks more
          ∧ IsValue text ∧ MeansSettings false text s := by
  intro whole
  obtain ⟨blanks, text, more, split, areBlanks, moreBlanks, -, given, isRecord, -⟩ :=
    whole [byte '{', byte '}', byte ' ', byte 'x'] {} rfl
  cases nil_of_blanks areBlanks (by decide) split
  cases isRecord.gives with
  | list isTail few => exact absurd (List.cons.inj split).1 (by decide)
  | object isTail named =>
      have behindBrace := (List.cons.inj split).2
      cases isTail with
      | @close _ _ blanks areBlanks =>
          have behindBlanks : [byte '}', byte ' ', byte 'x'] = blanks ++ (byte '}' :: more) := by
            rw [behindBrace]
            simp [Json.Cursor.Bracket.closing]
          cases nil_of_blanks areBlanks (by decide) behindBlanks
          obtain ⟨-, rfl⟩ := List.cons.inj behindBlanks
          exact absurd (moreBlanks (byte 'x') (by decide)) (by decide)
      | @entry _ _ _ gap _ _ _ _ _ isGap isKey _ _ _ =>
          cases isKey with
          | object _ _ =>
              cases isGap with
              | first areBlanks =>
                  have behindGap : [byte '}', byte ' ', byte 'x'] = gap ++ _ :=
                    behindBrace.trans (List.append_assoc _ _ _)
                  cases nil_of_blanks areBlanks (by decide) behindGap
                  exact absurd (List.cons.inj behindGap).1 (by decide)

end Raml.Settings
