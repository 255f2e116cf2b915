import Raml.Form.Members
import Raml.Proofs.Json.Numbers

/-! How the texts of values start, and what is read from there on: words, strings and numbers.
Numbers that need not be whole are taken to be what their own text reads back as.
-/

namespace Raml.Json

open Cursor

variable {Part : Type} {s : Selection Part} {part : Part} {j : Json} {rest : Bytes} {p q : Place}
variable {α : Type}

-----------------------------------------------------------------------------------------
-- What is read
-----------------------------------------------------------------------------------------

mutual

/-- All of a value is among what is read of it as a part. -/
def Within (s : Selection Part) (part : Part) : Json → Prop
  | .arr items => ItemsWithin s part 0 items
  | .obj members => MembersWithin s part members
  | _ => True

/-- All of the items from a place on is among what is read of a list. -/
def ItemsWithin (s : Selection Part) (part : Part) : Nat → List Json → Prop
  | _, [] => True
  | index, j :: js => j.Within s (s.item part index) ∧ ItemsWithin s part (index + 1) js

/-- All of the members is among what is read of an object, whose keys may be taken as they are
written. -/
def MembersWithin (s : Selection Part) (part : Part) : List (String × Json) → Prop
  | [] => True
  | (key, j) :: members =>
      (s.keysAsWritten part = true → escaped key = key)
        ∧ (∃ inner, s.member? part key = some inner ∧ j.Within s inner)
        ∧ MembersWithin s part members

end

mutual

/-- The numbers in a value that need not be whole. -/
def floats : Json → List Float
  | .float x => [x]
  | .arr items => itemFloats items
  | .obj members => memberFloats members
  | _ => []

def itemFloats : List Json → List Float
  | [] => []
  | j :: js => j.floats ++ itemFloats js

def memberFloats : List (String × Json) → List Float
  | [] => []
  | (_, j) :: members => j.floats ++ memberFloats members

end

mutual

/-- The whole numbers in a value. -/
def wholes : Json → List Int
  | .int i => [i]
  | .arr items => itemWholes items
  | .obj members => memberWholes members
  | _ => []

def itemWholes : List Json → List Int
  | [] => []
  | j :: js => j.wholes ++ itemWholes js

def memberWholes : List (String × Json) → List Int
  | [] => []
  | (_, j) :: members => j.wholes ++ memberWholes members

end

/-- A number is what its own text is read as. -/
def ReadsBack (x : Float) : Prop := read (Bytes.ofText (floatText x)) = .ok (.float x)

/-- A whole number that is read without rounding. -/
def IsWord (i : Int) : Prop := (int64? i).isSome ∨ (uint64? i).isSome

-----------------------------------------------------------------------------------------
-- Blanks
-----------------------------------------------------------------------------------------

namespace Cursor

theorem isBlank_of_skipBlanks {c : Cursor} {b : UInt8} (h : c.skipBlanks = ⟨b :: rest, q⟩)
    : isBlank b = false := by
  obtain ⟨bytes, p⟩ := c
  induction bytes generalizing p with
  | nil => cases h
  | cons first bytes ih =>
      simp only [skipBlanks, skipBlanksAt] at h ih
      split at h
      · exact ih _ h
      · next ink =>
          cases h
          exact Bool.not_eq_true _ ▸ ink

/-- Behind blanks there are no more blanks. -/
theorem skipBlanks_skipBlanks (c : Cursor) : c.skipBlanks.skipBlanks = c.skipBlanks := by
  cases same : c.skipBlanks with
  | mk bytes q =>
      cases bytes with
      | nil => rfl
      | cons b bytes => exact skipBlanks_cons (isBlank_of_skipBlanks same)

/-- Blanks at the front of a text are passed, whatever follows the text. -/
theorem skipBlanks_append {bytes more : Bytes} {b : UInt8}
    (h : (⟨bytes, p⟩ : Cursor).skipBlanks = ⟨b :: more, q⟩) (rest : Bytes) (p' : Place)
    : ∃ q', (⟨bytes ++ rest, p'⟩ : Cursor).skipBlanks = ⟨b :: more ++ rest, q'⟩ := by
  induction bytes generalizing p p' with
  | nil => cases h
  | cons first bytes ih =>
      simp only [skipBlanks, skipBlanksAt, List.cons_append] at h ih ⊢
      split at h
      · next blank =>
          rw [if_pos blank]
          exact ih h _
      · next ink =>
          cases h
          rw [if_neg ink]
          exact ⟨p', rfl⟩

/-- What is read is `a`, if anything is, and `rest` is left over behind blanks. -/
def ReadsTo (x : Except Failure (α × Cursor)) (a : α) (rest : Bytes) : Prop :=
  Yields x fun (b, c) => b = a ∧ c.skipBlanks.rest = rest

/-- What follows a value is no blank. -/
theorem Ends.skipBlanks (ends : Ends rest) : (⟨rest, p⟩ : Cursor).skipBlanks = ⟨rest, p⟩ := by
  cases rest with
  | nil => rfl
  | cons b rest =>
      apply skipBlanks_cons
      rcases ends b rfl with rfl | rfl | rfl <;> decide

/-- Reading that does not mind what follows does not mind what ends a value. -/
theorem Reads.readsTo {x : Except Failure (α × Cursor)} {a : α} (ends : Ends rest)
    (h : Reads x a rest) : ReadsTo x a rest := by
  rintro ⟨b, c⟩ ok
  obtain ⟨same, left⟩ := h _ ok
  obtain ⟨bytes, p⟩ := c
  cases left
  exact ⟨same, congrArg Cursor.rest ends.skipBlanks⟩

end Cursor

-----------------------------------------------------------------------------------------
-- Values by their first byte
-----------------------------------------------------------------------------------------

section

attribute [local simp] value skipBlanks skipBlanksAt isBlank byte peek? advance

/-- Blanks before a value do not matter. -/
theorem value_skipBlanks (s : Selection Part) (depth : Nat) (part : Part) (c : Cursor)
    : value s depth part c.skipBlanks = value s depth part c := by
  cases depth <;> simp only [value, skipBlanks_skipBlanks]

/-- A minus starts a number. -/
theorem value_minus (depth : Nat)
    : value s depth part ⟨byte '-' :: rest, p⟩
      = number true ⟨rest, step p (byte '-')⟩ := by
  cases depth <;> simp

theorem ne_of_digit {b : UInt8} (digit : Cursor.isDigit b = true) (d : Char)
    (h : Cursor.isDigit (byte d) = false) : b ≠ byte d := by
  rintro rfl
  rw [h] at digit
  cases digit

theorem not_blank_of_digit {b : UInt8} (digit : Cursor.isDigit b = true) : isBlank b = false := by
  have space := ne_of_digit digit ' ' (by decide)
  have newline := ne_of_digit digit '\n' (by decide)
  have tab := ne_of_digit digit '\t' (by decide)
  have carriage := ne_of_digit digit '\r' (by decide)
  simpa [isBlank] using ⟨⟨⟨space, newline⟩, tab⟩, carriage⟩

/-- A digit starts a number. -/
theorem value_digit {b : UInt8} (digit : Cursor.isDigit b = true) (depth : Nat)
    : value s depth part ⟨b :: rest, p⟩ = number false ⟨b :: rest, p⟩ := by
  have blank := not_blank_of_digit digit
  have other := ne_of_digit digit
  have n := other 'n' (by decide)
  have t := other 't' (by decide)
  have f := other 'f' (by decide)
  have minus := other '-' (by decide)
  cases depth <;> simp only [value, skipBlanks_cons blank, peek?_cons, if_neg n, if_neg t, if_neg f,
    if_neg minus] <;> exact if_pos digit

/-- Nothing is no value. -/
theorem value_nil (depth : Nat)
    : value s depth part ⟨[], p⟩ = .error ⟨.endInValue, p⟩ := by
  cases depth <;> simp [behind]

/-- A quote starts a string. -/
theorem value_quote (depth : Nat)
    : value s depth part ⟨byte '"' :: rest, p⟩
      = string ⟨rest, step p (byte '"')⟩ >>= fun x => .ok (.str x.1, x.2) := by
  cases depth <;> simp

/-- Brackets that are nested too deep are not read. -/
theorem value_tooDeep {b : UInt8} (h : b = byte '[' ∨ b = byte '\x7b')
    : value s 0 part ⟨b :: rest, p⟩ = .error (Cursor.ahead ⟨b :: rest, p⟩ .tooDeep) := by
  rcases h with rfl | rfl <;> simp

/-- A bracket starts a list, whose items are read one level deeper. -/
theorem value_bracket (depth : Nat)
    : value s (depth + 1) part ⟨byte '[' :: rest, p⟩
      = items (fun index => value s depth (s.item part index)) (rest.length + 2) 0
          ⟨rest, step p (byte '[')⟩ >>= fun x => .ok (.arr x.1, x.2) := by
  simp

/-- A brace starts an object, whose members are read one level deeper. -/
theorem value_brace (depth : Nat)
    : value s (depth + 1) part ⟨byte '\x7b' :: rest, p⟩
      = members (if s.keysAsWritten part then writtenKey else string)
          (fun key => (s.member? part key).map (value s depth)) (rest.length + 2) true
          ⟨rest, step p (byte '\x7b')⟩ >>= fun x => .ok (.obj x.1, x.2) := by
  simp

/-- The letters of a word are passed. -/
theorem yields_word (letters : List Char) (rest : Bytes) (p : Place)
    : Yields (word letters ⟨letters.map byte ++ rest, p⟩) fun c => c.rest = rest := by
  induction letters generalizing p with
  | nil => exact Yields.ok rfl
  | cons letter letters ih =>
      simp only [word, List.map_cons, List.cons_append, peek?_cons, advance_cons, if_pos trivial]
      exact ih _

/-- The first letter of a word tells which word has to follow. -/
theorem value_word {letter : Char} {letters : List Char} {j : Json}
    (h : (letter, letters, j) ∈ [('n', ['u', 'l', 'l'], .null), ('t', ['r', 'u', 'e'], .bool true),
      ('f', ['a', 'l', 's', 'e'], .bool false)])
    (depth : Nat)
    : value s depth part ⟨byte letter :: rest, p⟩
      = word letters ⟨rest, step p (byte letter)⟩ >>= fun c => .ok (j, c) := by
  have ull : "ull".toList = ['u', 'l', 'l'] := by decide
  have rue : "rue".toList = ['r', 'u', 'e'] := by decide
  have alse : "alse".toList = ['a', 'l', 's', 'e'] := by decide
  simp only [List.mem_cons, Prod.mk.injEq, List.not_mem_nil, or_false] at h
  rcases h with ⟨rfl, rfl, rfl⟩ | ⟨rfl, rfl, rfl⟩ | ⟨rfl, rfl, rfl⟩ <;>
    cases depth <;> simp [ull, rue, alse]

end

-----------------------------------------------------------------------------------------
-- Texts of values
-----------------------------------------------------------------------------------------

/-- A text starts, behind blanks, with a byte from which on a value is read, whatever follows. -/
structure Spells (s : Selection Part) (text : Bytes) (j : Json) (b : UInt8) (more : Bytes)
    : Prop where
  opens (rest : Bytes) (p : Place)
    : ∃ q, (⟨text ++ rest, p⟩ : Cursor).skipBlanks = ⟨b :: (more ++ rest), q⟩
  notClosing : b ≠ byte ']'
  reads (depth : Nat) (part : Part) (rest : Bytes) (p : Place) (within : j.Within s part)
    (ends : Ends rest) : ReadsTo (value s depth part ⟨b :: more ++ rest, p⟩) j rest

/-- A text that starts without blanks. -/
theorem Spells.of_reads {b : UInt8} {more : Bytes} (ink : isBlank b = false)
    (notClosing : b ≠ byte ']')
    (reads : ∀ depth part rest p, j.Within s part → Ends rest →
      Reads (value s depth part ⟨b :: more ++ rest, p⟩) j rest)
    : Spells s (b :: more) j b more where
  opens _ p := ⟨p, skipBlanks_cons ink⟩
  notClosing := notClosing
  reads depth part rest p within ends := (reads depth part rest p within ends).readsTo ends

/-- Words are read back. -/
theorem spells_word {letter : Char} {letters : List Char}
    (h : (letter, letters, j) ∈ [('n', ['u', 'l', 'l'], .null), ('t', ['r', 'u', 'e'], .bool true),
      ('f', ['a', 'l', 's', 'e'], .bool false)])
    : Spells s ((letter :: letters).map byte) j (byte letter) (letters.map byte) := by
  refine Spells.of_reads ?_ ?_ fun depth part rest p _ _ => ?_
  · simp only [List.mem_cons, Prod.mk.injEq, List.not_mem_nil, or_false] at h
    rcases h with ⟨rfl, -, -⟩ | ⟨rfl, -, -⟩ | ⟨rfl, -, -⟩ <;> decide
  · simp only [List.mem_cons, Prod.mk.injEq, List.not_mem_nil, or_false] at h
    rcases h with ⟨rfl, -, -⟩ | ⟨rfl, -, -⟩ | ⟨rfl, -, -⟩ <;> decide
  · rw [List.cons_append, value_word h]
    exact (yields_word letters rest _).bind fun c left => Yields.ok ⟨rfl, left⟩

/-- Strings are read back. -/
theorem spells_string (text : String)
    : Spells s (Bytes.ofText (stringText text)) (.str text) (byte '"')
        (Bytes.ofText (escaped text) ++ [byte '"']) := by
  rw [ofText_stringText]
  refine Spells.of_reads (by decide) (by decide) fun depth part rest p _ _ => ?_
  rw [List.cons_append, value_quote, List.append_assoc]
  refine (reads_string text rest _).bind ?_
  rintro ⟨_, c⟩ ⟨rfl, left⟩
  exact Yields.ok ⟨rfl, left⟩

/-- A number without a sign fits if it is a word. -/
theorem wholeNumber?_natural {n : Nat} (h : IsWord n)
    : wholeNumber? false (Nat.toDigits 10 n) = some (n : Int) := by
  have word : (uint64? n).isSome = true := by
    rcases h with signed | unsigned
    · simp only [int64?, Int64.toInt_maxValue, Option.isSome_ite] at signed
      simp only [uint64?, UInt64.size, Option.isSome_ite]
      omega
    · exact unsigned
  simp [wholeNumber?, digitsValue_toDigits, word]

/-- A number behind a minus fits if it is a word. -/
theorem wholeNumber?_negative {n : Nat} (h : IsWord (Int.negSucc n))
    : wholeNumber? true (Nat.toDigits 10 (n + 1)) = some (Int.negSucc n) := by
  have word : (int64? (Int.negSucc n)).isSome = true := by
    rcases h with signed | unsigned
    · exact signed
    · simp [uint64?] at unsigned
  have same : -((n : Int) + 1) = Int.negSucc n := (Int.negSucc_eq n).symm
  simp [wholeNumber?, digitsValue_toDigits, same, word]

/-- Digits are read as the number that they spell, whatever follows. -/
theorem reads_toDigits {negative : Bool} {n : Nat} {i : Int}
    (whole : wholeNumber? negative (Nat.toDigits 10 n) = some i) (ends : Ends rest) (p : Place)
    : Reads (number negative ⟨(Nat.toDigits 10 n).map byte ++ rest, p⟩) (.int i) rest := by
  obtain ⟨⟨_, q⟩, read, rfl⟩ := number_toDigits negative n whole {}
  exact local_number negative _ _ _ _ read rest p ends

theorem ofText_repr (n : Nat) : Bytes.ofText n.repr = (Nat.toDigits 10 n).map byte := by
  rw [Nat.repr_eq_ofList_toDigits]
  refine ofText_ascii _ (List.all_eq_true.mpr fun d member => decide_eq_true ?_)
  have digit := Nat.isDigit_of_mem_toDigits (by decide) (by decide) member
  have bound := (Char.isDigit_iff_toNat.mp digit).2
  exact Nat.lt_of_le_of_lt bound (by decide)

/-- Whole numbers that are words are read back. -/
theorem spells_int {i : Int} (word : IsWord i)
    : ∃ b more, Spells s (Bytes.ofText (toString i)) (.int i) b more := by
  rw [Int.toString_eq_repr]
  cases i with
  | ofNat n =>
      rw [Int.repr, ofText_repr]
      cases digits : Nat.toDigits 10 n with
      | nil => exact absurd digits Nat.toDigits_ne_nil
      | cons d ds =>
          have digit : d.isDigit = true :=
            Nat.isDigit_of_mem_toDigits (by decide) (by decide) (digits ▸ List.mem_cons_self)
          obtain ⟨digit, -⟩ := byte_digit digit
          refine ⟨byte d, ds.map byte, Spells.of_reads (not_blank_of_digit digit) ?_ ?_⟩
          · rintro same
            rw [same] at digit
            cases digit
          · intro depth part rest p _ ends
            rw [List.cons_append, value_digit digit, ← List.cons_append, ← List.map_cons, ← digits]
            exact reads_toDigits (wholeNumber?_natural word) ends p
  | negSucc n =>
      rw [Int.repr, Bytes.ofText_append, ofText_repr]
      refine ⟨byte '-', (Nat.toDigits 10 (n + 1)).map byte, ?_⟩
      rw [show Bytes.ofText "-" = [byte '-'] from ofText_ascii ['-'] (by decide)]
      refine Spells.of_reads (by decide) (by decide) fun depth part rest p _ ends => ?_
      rw [List.cons_append, value_minus]
      exact reads_toDigits (wholeNumber?_negative word) ends _

/-- A value that is read as a number that need not be whole starts like a number. -/
theorem number_of_value_eq_float {depth : Nat} {b : UInt8} {x : Float} {c : Cursor}
    (h : value s depth part ⟨b :: rest, p⟩ = .ok (.float x, c)) (ink : isBlank b = false)
    : b = byte '-' ∨ Cursor.isDigit b = true := by
  by_contra other
  obtain ⟨minus, digit⟩ := not_or.mp other
  have digit : ¬(byte '0' ≤ b && b ≤ byte '9') = true := digit
  cases depth
  all_goals
    simp only [value, skipBlanks_cons ink, peek?_cons, if_neg minus, if_neg digit] at h
    repeat' split at h
    all_goals first
      | cases h
      | (obtain ⟨_, -, h⟩ := bind_eq_ok_iff.mp h; cases h)

/-- A number that is not collapsed to a whole one has been such a number before. -/
theorem eq_float_of_collapse {x : Float} (h : j.collapse = .float x) : j = .float x := by
  cases j <;> simp_all [collapse]

/-- Blanks at the end of what was read count for nothing. -/
theorem Cursor.Reads.of_peek? {x : Except Failure (α × Cursor)} {a : α} {c : Cursor}
    (h : Reads x a (c.rest ++ rest)) (none : c.skipBlanks.peek? = none) (ends : Ends rest)
    : ReadsTo x a rest := by
  have behind (p : Place) : (⟨c.rest ++ rest, p⟩ : Cursor).skipBlanks.rest = rest := by
    obtain ⟨bytes, q⟩ := c
    clear h
    induction bytes generalizing q p with
    | nil => exact congrArg Cursor.rest ends.skipBlanks
    | cons b bytes ih =>
        simp only [skipBlanks, skipBlanksAt, List.cons_append] at none ih ⊢
        split at none
        · next blank =>
            rw [if_pos blank]
            exact ih _ _ none
        · cases none
  rintro ⟨a', ⟨_, p⟩⟩ ok
  obtain ⟨same, left⟩ := h _ ok
  cases left
  exact ⟨same, behind p⟩

/-- A number that reads back does so whatever follows it. -/
theorem spells_float {x : Float} (back : ReadsBack x)
    : ∃ b more, Spells s (Bytes.ofText (floatText x)) (.float x) b more := by
  obtain ⟨j, read, same⟩ := map_eq_ok_iff.mp back
  cases eq_float_of_collapse same
  obtain ⟨⟨j, c⟩, read, all⟩ := bind_eq_ok_iff.mp read
  simp only at all
  split at all
  · next none =>
      cases all
      rw [← value_skipBlanks] at read
      cases start : (⟨Bytes.ofText (floatText x), {}⟩ : Cursor).skipBlanks with
      | mk bytes q =>
          rw [start] at read
          cases bytes with
          | nil =>
              rw [value_nil] at read
              cases read
          | cons b more =>
              have ink := isBlank_of_skipBlanks start
              refine ⟨b, more, skipBlanks_append start, ?_, ?_⟩
              · rcases number_of_value_eq_float read ink with rfl | digit
                · decide
                · exact ne_of_digit digit ']' (by decide)
              intro depth part rest p _ ends
              rcases number_of_value_eq_float read ink with rfl | digit
              · rw [value_minus] at read
                rw [List.cons_append, value_minus]
                exact (local_number true _ _ _ _ read rest _ ends).of_peek? none ends
              · rw [value_digit digit] at read
                rw [List.cons_append, value_digit digit, ← List.cons_append]
                exact (local_number false _ _ _ _ read rest p ends).of_peek? none ends
  · cases all

end Raml.Json
