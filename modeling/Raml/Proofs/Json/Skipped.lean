import Raml.Proofs.Json.Grammar

/-! What is skipped is one value.

A value that opens a bracket is skipped together with whatever follows, up to the end of all brackets
that are open around it. So what is passed is the value, and behind it the tail of each bracket.
-/

namespace Raml.Json.Cursor

open Grammar

variable {c c' : Cursor} {b : UInt8}

-----------------------------------------------------------------------------------------
-- Numbers and strings
-----------------------------------------------------------------------------------------

/-- The cursor behind the sign of an exponent. -/
def behindSign (c : Cursor) : Cursor :=
  match c.peek? with
  | some b => if b = byte '+' || b = byte '-' then c.advance else c
  | none => c

/-- There may be a sign, and it has been passed. -/
theorem passed_behindSign (c : Cursor)
    : ∃ sign ∈ [[], [byte '+'], [byte '-']], c.rest = sign ++ c.behindSign.rest := by
  unfold behindSign
  split
  · next b next =>
      split
      · next isSign => exact ⟨[b], by simpa using isSign, rest_of_peek? next⟩
      · exact ⟨[], by simp, rfl⟩
  · exact ⟨[], by simp, rfl⟩

/-- What is skipped as an exponent are a sign and digits. -/
theorem passed_skipExponent (h : c.skipExponent = .ok c')
    : ∃ sign ds, sign ∈ [[], [byte '+'], [byte '-']] ∧ Digits ds
      ∧ c.rest = sign ++ (ds ++ c'.rest) := by
  have unfolded : c.skipExponent
      = if c.behindSign.digits.1.isEmpty then
          .error (c.behindSign.advance.behind .invalidNumber)
        else .ok c.behindSign.skipDigits := rfl
  rw [unfolded] at h
  obtain ⟨sign, isSign, split⟩ := passed_behindSign c
  split at h
  · cases h
  · next some =>
      cases h
      obtain ⟨ds, digits, passed, -⟩ := passed_digits (Bool.not_eq_true _ ▸ some)
      exact ⟨sign, ds, isSign, digits, by rw [split, passed]; rfl⟩

/-- What is skipped is an exponent or nothing. -/
theorem passed_skipExponentIfAny (h : c.skipExponentIfAny = .ok c')
    : ∃ exponent, Exponent exponent ∧ c.rest = exponent ++ c'.rest := by
  unfold skipExponentIfAny at h
  split at h
  · next b next =>
      split at h
      · next mark =>
          obtain ⟨sign, ds, isSign, digits, split⟩ := passed_skipExponent h
          have isMark : b = byte 'e' ∨ b = byte 'E' := by simpa using mark
          refine ⟨_, .some isMark isSign digits, ?_⟩
          rw [rest_of_peek? next, split]
          simp
      · cases h
        exact ⟨[], .none, rfl⟩
  · cases h
    exact ⟨[], .none, rfl⟩

/-- Behind its sign, a number is skipped. -/
theorem passed_skipNumber (h : c.skipNumber = .ok c')
    : ∃ ds fraction exponent, Leading ds ∧ Fraction fraction ∧ Exponent exponent
      ∧ c.rest = ds ++ (fraction ++ (exponent ++ c'.rest)) := by
  obtain ⟨ds, each, split, same⟩ := rest_digits c
  unfold skipNumber at h
  generalize c.digits = found at h split same
  obtain ⟨found, after⟩ := found
  cases same
  split at h
  · cases h
  · cases h
  next some alone equal =>
  cases equal
  have leading : Leading ds := leading_of_digits each (by rintro rfl; exact some rfl) alone
  split at h
  · next b next =>
      split at h
      · next point =>
          simp only at h
          split at h
          · cases h
          · next some =>
              obtain ⟨fraction, digits, passed, -⟩ := passed_digits (Bool.not_eq_true _ ▸ some)
              obtain ⟨exponent, isExponent, passed'⟩ := passed_skipExponentIfAny h
              refine ⟨ds, byte '.' :: fraction, exponent, leading, .some digits, isExponent, ?_⟩
              have behind : after.advance.digits.2.rest = exponent ++ c'.rest := passed'
              rw [split, rest_of_peek? next, point, passed, behind]
              rfl
      · obtain ⟨exponent, isExponent, passed⟩ := passed_skipExponentIfAny h
        exact ⟨ds, [], exponent, leading, .none, isExponent, by rw [split, passed]; rfl⟩
  · cases h
    exact ⟨ds, [], [], leading, .none, .none, split⟩

/-- A number is skipped, and its sign. -/
theorem number_of_skipNumber {sign : Bytes} (isSign : sign ∈ [[], [byte '-']])
    (h : c.skipNumber = .ok c')
    : ∃ number, Number number ∧ sign ++ c.rest = number ++ c'.rest := by
  obtain ⟨ds, fraction, exponent, leading, isFraction, isExponent, split⟩ := passed_skipNumber h
  exact ⟨_, .mk isSign leading isFraction isExponent, by rw [split]; simp⟩

/-- What is skipped behind a backslash is an escape, whatever it stands for. -/
theorem passed_skipEscape (h : c.skipEscape = .ok c') : ∃ e, Escape e ∧ c.rest = e ++ c'.rest := by
  unfold skipEscape at h
  split at h
  · cases h
  next b next =>
  split at h
  · next u =>
      obtain ⟨⟨n, c₁⟩, read, same⟩ := map_eq_ok_iff.mp h
      cases same
      obtain ⟨ds, hex, split⟩ := passed_hex4 read
      exact ⟨_, .code hex, by rw [rest_of_peek? next, u, split]; rfl⟩
  split at h
  · next listed =>
      cases h
      obtain ⟨l, member, same⟩ := List.any_eq_true.mp listed
      have all : letters.map Prod.fst = "\"\\/bfnrt".toList := by simp [letters]
      rw [← all] at member
      obtain ⟨⟨_, _⟩, letter, rfl⟩ := List.mem_map.mp member
      exact ⟨_, .letter letter, by rw [rest_of_peek? next, of_decide_eq_true same]; rfl⟩
  · cases h

/-- What is skipped up to the quote is well formed, by induction on the fuel. -/
theorem passed_skipStringRest {fuel : Nat} (h : c.skipStringRest fuel = .ok c')
    : ∃ body, Body body ∧ c.rest = body ++ byte '"' :: c'.rest := by
  induction fuel generalizing c with
  | zero => cases h
  | succ fuel ih =>
      rw [skipStringRest] at h
      split at h
      · cases h
      next b next =>
      have split := rest_of_peek? next
      split at h
      · next quote =>
          cases h
          exact ⟨[], .nil, by rw [split, quote]; rfl⟩
      split at h
      · next backslash =>
          obtain ⟨c₁, skipped, h₁⟩ := bind_eq_ok_iff.mp h
          obtain ⟨e, isEscape, passed⟩ := passed_skipEscape skipped
          obtain ⟨body, isBody, rest⟩ := ih h₁
          exact ⟨_, .escape isEscape isBody, by rw [split, backslash, passed, rest]; simp⟩
      split at h
      · cases h
      · next quote backslash control =>
          obtain ⟨body, isBody, rest⟩ := ih h
          have plain : isPlain b = true := by simp [isPlain, quote, backslash, control]
          exact ⟨_, .plain plain isBody, by rw [split, rest]; rfl⟩

/-- Behind its opening quote, a string is skipped. -/
theorem passed_skipString (h : c.skipString = .ok c')
    : ∃ body, Body body ∧ byte '"' :: c.rest = quoted body ++ c'.rest := by
  obtain ⟨body, isBody, split⟩ := passed_skipStringRest h
  exact ⟨body, isBody, by rw [split, quoted]; simp⟩

-----------------------------------------------------------------------------------------
-- Values
-----------------------------------------------------------------------------------------

/-- What is skipped is a word, a number or a string. -/
theorem passed_skipScalar (next : c.peek? = some b) (h : skipScalar b c = .ok c')
    : ∃ value, IsValue value ∧ c.rest = value ++ c'.rest := by
  have split := rest_of_peek? next
  have word {letter : Char} {letters : List Char} {w : String} (text : w.toList = letter :: letters)
      (listed : w ∈ ["null", "true", "false"]) (same : b = byte letter)
      (h : Cursor.word letters c.advance = .ok c')
      : ∃ value, IsValue value ∧ c.rest = value ++ c'.rest :=
    ⟨_, .word listed, by rw [split, rest_of_word h, same, text]; rfl⟩
  unfold skipScalar at h
  split at h
  · next same => exact word (w := "null") (by decide) (by decide) same h
  split at h
  · next same => exact word (w := "true") (by decide) (by decide) same h
  split at h
  · next same => exact word (w := "false") (by decide) (by decide) same h
  split at h
  · next minus =>
      have isSign : [byte '-'] ∈ [[], [byte '-']] := by simp
      obtain ⟨number, isNumber, passed⟩ := number_of_skipNumber isSign h
      exact ⟨number, .number isNumber, by rw [split, minus]; exact passed⟩
  split at h
  · obtain ⟨number, isNumber, passed⟩ := number_of_skipNumber List.mem_cons_self h
    exact ⟨number, .number isNumber, passed⟩
  split at h
  · next quote =>
      obtain ⟨body, isBody, passed⟩ := passed_skipString h
      exact ⟨quoted body, .string isBody, by rw [split, quote]; exact passed⟩
  · cases h

/-- A key is skipped up to its colon. -/
theorem passed_skipKey {bracket : Bracket} (h : skipKey bracket c = .ok c')
    : ∃ blanks name key, Blanks blanks ∧ Key bracket name key
      ∧ c.rest = blanks ++ (key ++ c'.rest) := by
  cases bracket with
  | list =>
      cases h
      exact ⟨[], [], [], nofun, .list, rfl⟩
  | object =>
      obtain ⟨blanks, areBlanks, split⟩ := blanks_skipBlanks c
      unfold skipKey at h
      simp only at h
      split at h
      · cases h
      next b next =>
      split at h
      · next quote =>
          obtain ⟨c₁, skipped, h₁⟩ := bind_eq_ok_iff.mp h
          obtain ⟨body, isBody, passed⟩ := passed_skipString skipped
          obtain ⟨blanks', areBlanks', split'⟩ := blanks_skipBlanks c₁
          split at h₁
          · cases h₁
          next b' next' =>
          split at h₁
          · next colon =>
              cases h₁
              refine ⟨blanks, _, _, areBlanks, .object isBody areBlanks', ?_⟩
              rw [split, rest_of_peek? next, quote, passed, split', rest_of_peek? next', colon]
              simp
          · cases h₁
      · cases h

/-- The tails of open brackets, from the inside out. -/
inductive Tails : List Bracket → Bool → Bytes → Prop where
  | nil {behindValue : Bool} : Tails [] behindValue []
  | cons {bracket : Bracket} {around : List Bracket} {behindValue : Bool}
      {entries : List (Bytes × Bytes)} {tail tails : Bytes}
      (first : Tail bracket behindValue entries tail) (later : Tails around true tails)
      : Tails (bracket :: around) behindValue (tail ++ tails)

/-- What is passed from a value on: the value and the tails of all brackets open around it. -/
def PassesValue (around : List Bracket) (c c' : Cursor) : Prop :=
  ∃ value tails, IsValue value ∧ Tails around true tails
    ∧ c.skipBlanks.rest = value ++ (tails ++ c'.rest)

/-- What is passed up to the end of all open brackets. -/
def PassesRest (around : List Bracket) (behindValue : Bool) (c c' : Cursor) : Prop :=
  ∃ tails, Tails around behindValue tails ∧ c.rest = tails ++ c'.rest

variable {bracket : Bracket} {around : List Bracket} {behindValue : Bool}

/-- A bracket and its tail are a value. -/
theorem passesValue_of_bracket (h : PassesRest (bracket :: around) false c.skipBlanks.advance c')
    (next : c.skipBlanks.peek? = some (opening bracket))
    : PassesValue around c c' := by
  obtain ⟨_, tails, passed⟩ := h
  cases tails with
  | cons first later =>
      exact ⟨_, _, .bracket first, later, by rw [rest_of_peek? next, passed]; simp⟩

/-- An entry and the tail behind it are a tail. -/
theorem passesRest_of_entry {gap : Bytes} {c₁ c₂ : Cursor}
    (split : c.rest = gap ++ c₁.rest)
    (isGap : ∀ blanks, Blanks blanks → Gap behindValue (gap ++ blanks))
    (key : skipKey bracket c₁ = .ok c₂)
    (h : PassesValue (bracket :: around) c₂ c')
    : PassesRest (bracket :: around) behindValue c c' := by
  obtain ⟨blanks, name, key, areBlanks, isKey, passed⟩ := passed_skipKey key
  obtain ⟨blanks', areBlanks', passed'⟩ := blanks_skipBlanks c₂
  obtain ⟨value, _, isValue, tails, rest⟩ := h
  cases tails with
  | cons first later =>
      refine ⟨_, .cons (.entry (isGap blanks areBlanks) isKey areBlanks' isValue first) later, ?_⟩
      rw [split, passed, passed', rest]
      simp

section Steps

variable {fuel : Nat}
  (rest : ∀ around behindValue c c', skipRest fuel around behindValue c = .ok c'
    → PassesRest around behindValue c c')

include rest

/-- A value is skipped as soon as what follows it is: it opens a bracket or is a scalar. -/
theorem passesValue_of_skipFrom (h : skipFrom (fuel + 1) around c = .ok c')
    : PassesValue around c c' := by
  rw [skipFrom] at h
  split at h
  · cases h
  next b next =>
  split at h
  · next same =>
      exact passesValue_of_bracket (rest _ _ _ _ h) (next.trans (congrArg some same))
  split at h
  · next same =>
      exact passesValue_of_bracket (rest _ _ _ _ h) (next.trans (congrArg some same))
  · obtain ⟨c₁, skipped, h₁⟩ := bind_eq_ok_iff.mp h
    obtain ⟨scalar, isValue, passed⟩ := passed_skipScalar next skipped
    obtain ⟨tails, areTails, passed'⟩ := rest _ _ _ _ h₁
    exact ⟨scalar, tails, isValue, areTails, by rw [passed, passed']⟩

/-- The tails of open brackets are skipped as soon as values are: the innermost bracket is closed, or
an entry follows, behind a comma where it is not the first. -/
theorem passesRest_of_skipRest
    (value : ∀ around c c', skipFrom fuel around c = .ok c' → PassesValue around c c')
    (h : skipRest (fuel + 1) around behindValue c = .ok c')
    : PassesRest around behindValue c c' := by
  cases around with
  | nil =>
      rw [skipRest] at h
      cases h
      exact ⟨[], .nil, rfl⟩
  | cons bracket around =>
      obtain ⟨blanks, areBlanks, split⟩ := blanks_skipBlanks c
      rw [skipRest] at h
      split at h
      · cases h
      next b next =>
      have split' := rest_of_peek? next
      split at h
      · next closing =>
          obtain ⟨tails, areTails, passed⟩ := rest _ _ _ _ h
          exact ⟨_, .cons (.close areBlanks) areTails, by
            rw [split, split', closing, passed]; simp⟩
      split at h
      · next first =>
          cases Bool.not_eq_true' _ ▸ first
          obtain ⟨c₁, key, h₁⟩ := bind_eq_ok_iff.mp h
          refine passesRest_of_entry split (fun more areMore => .first ?_) key (value _ _ _ h₁)
          exact List.forall_mem_append.mpr ⟨areBlanks, areMore⟩
      split at h
      · next later comma =>
          obtain ⟨c₁, key, h₁⟩ := bind_eq_ok_iff.mp h
          have behind : behindValue = true := by simpa using later
          cases behind
          have split : c.rest = (blanks ++ [byte ',']) ++ c.skipBlanks.advance.rest := by
            rw [split, split', comma]
            simp
          refine passesRest_of_entry split (fun more areMore => ?_) key (value _ _ _ h₁)
          simpa using Gap.later areBlanks areMore
      · cases h

end Steps

/-- Values are skipped, and the tails of brackets: by induction on the fuel, which is shared by both.
-/
theorem passes_skip (fuel : Nat)
    : (∀ around c c', skipFrom fuel around c = .ok c' → PassesValue around c c')
      ∧ ∀ around behindValue c c', skipRest fuel around behindValue c = .ok c'
        → PassesRest around behindValue c c' := by
  induction fuel with
  | zero => exact ⟨nofun, nofun⟩
  | succ fuel ih =>
      obtain ⟨value, rest⟩ := ih
      exact ⟨fun _ _ _ => passesValue_of_skipFrom rest,
        fun _ _ _ _ => passesRest_of_skipRest rest value⟩

/-- A value is skipped, and the blanks before it. -/
theorem passed_skipValue (h : c.skipValue = .ok c')
    : ∃ value, IsValue value ∧ c.skipBlanks.rest = value ++ c'.rest := by
  obtain ⟨value, _, isValue, tails, split⟩ := (passes_skip _).1 _ _ _ h
  cases tails
  exact ⟨value, isValue, split⟩

end Raml.Json.Cursor
