import Mathlib.Data.List.TakeWhile
import Raml.Proofs.Json.Strings

/-! Numbers read back. What a number is does not depend on what follows it, as long as that is what
follows a value in a list or an object.
-/

namespace Raml.Json.Cursor

variable {α β : Type} {bytes rest : Bytes} {p q : Place}

-----------------------------------------------------------------------------------------
-- What follows a value
-----------------------------------------------------------------------------------------

/-- What may follow a value: nothing, a comma or a closing bracket. -/
def Ends (rest : Bytes) : Prop := ∀ b ∈ rest.head?, b = byte ',' ∨ b = byte ']' ∨ b = byte '}'

theorem ends_nil : Ends [] := nofun

theorem ends_comma : Ends (byte ',' :: rest) := by
  rintro _ ⟨⟩
  exact .inl rfl

/-- Whether a byte is a digit. -/
def isDigit (b : UInt8) : Bool := byte '0' ≤ b && b ≤ byte '9'

/-- What follows a value is not part of a number. -/
theorem Ends.not_number (ends : Ends rest) {b : UInt8} (h : rest.head? = some b)
    : isDigit b = false ∧ b ≠ byte '.' ∧ b ≠ byte 'e' ∧ b ≠ byte 'E' ∧ b ≠ byte '+'
      ∧ b ≠ byte '-' := by
  rcases ends b h with rfl | rfl | rfl <;> decide

/-- What is read is the same whatever follows, and that is left over. -/
def Local (f : Cursor → Except Failure (α × Cursor)) : Prop :=
  ∀ bytes p a after, f ⟨bytes, p⟩ = .ok (a, after) → ∀ rest p', Ends rest →
    Reads (f ⟨bytes ++ rest, p'⟩) a (after.rest ++ rest)

-----------------------------------------------------------------------------------------
-- The parts of numbers
-----------------------------------------------------------------------------------------

/-- To skip some bytes is to drop them. -/
theorem rest_skip (n : Nat) (c : Cursor) : (c.skip n).rest = c.rest.drop n := by
  induction n generalizing c with
  | zero => rfl
  | succ n ih =>
      obtain ⟨_ | ⟨b, rest⟩, p⟩ := c
      · rw [skip, ih]
        simp [advance]
      · rw [skip, ih]
        rfl

/-- Digits end where a number ends. -/
theorem digits_append (ends : Ends rest) (bytes : Bytes) (p p' : Place)
    : (digits ⟨bytes ++ rest, p'⟩).1 = (digits ⟨bytes, p⟩).1
      ∧ (digits ⟨bytes ++ rest, p'⟩).2.rest = (digits ⟨bytes, p⟩).2.rest ++ rest := by
  have same : (bytes ++ rest).takeWhile isDigit = bytes.takeWhile isDigit := by
    rw [List.takeWhile_append]
    split
    · next all =>
        have none : rest.takeWhile isDigit = [] := by
          cases rest with
          | nil => rfl
          | cons b rest => rw [List.takeWhile_cons, (ends.not_number rfl).1]; rfl
        rw [none, List.append_nil]
        exact ((List.takeWhile_prefix _).eq_of_length all).symm
    · rfl
  have bound : (bytes.takeWhile isDigit).length ≤ bytes.length :=
    (List.takeWhile_prefix _).length_le
  refine ⟨congrArg (List.map _) same, ?_⟩
  simp only [digits, rest_skip]
  change List.drop ((bytes ++ rest).takeWhile isDigit).length _
    = List.drop (bytes.takeWhile isDigit).length _ ++ rest
  rw [same, List.drop_append_of_le_length bound]

/-- Digits end where no digit follows. -/
theorem local_wholeDigits : Local wholeDigits := by
  intro bytes p a after h rest p' ends
  obtain ⟨same, later⟩ := digits_append ends bytes p p'
  unfold wholeDigits at h ⊢
  simp only [same]
  generalize digits ⟨bytes, p⟩ = found at *
  obtain ⟨ds, c⟩ := found
  simp only at h ⊢
  split at h
  · split at h <;> cases h
  · cases h
  · next plain zeros =>
      cases h
      exact Yields.ok ⟨rfl, later⟩

/-- A fraction ends where no digit follows. -/
theorem local_fractionDigits : Local fractionDigits := by
  intro bytes p a after h rest p' ends
  cases bytes with
  | nil =>
      cases h
      unfold fractionDigits
      split
      · next b next =>
          rw [if_neg (ends.not_number next).2.1]
          exact Yields.ok ⟨rfl, rfl⟩
      · exact Yields.ok ⟨rfl, rfl⟩
  | cons b bytes =>
      obtain ⟨same, later⟩ := digits_append ends bytes (step p b) (step p' b)
      simp only [fractionDigits, List.cons_append, peek?_cons, advance_cons, same] at h ⊢
      split at h
      · next point =>
          rw [if_pos point]
          cases some : (digits ⟨bytes, step p b⟩).1.isEmpty with
          | true =>
              simp only [some, ↓reduceIte] at h
              split at h <;> cases h
          | false =>
              simp only [some, Bool.false_eq_true, ↓reduceIte] at h ⊢
              cases h
              exact Yields.ok ⟨rfl, later⟩
      · next other =>
          cases h
          rw [if_neg other]
          exact Yields.ok ⟨rfl, rfl⟩

/-- The sign of an exponent, behind which its digits stand. -/
def signOf (c : Cursor) : Bool × Cursor :=
  match c.peek? with
  | some b =>
      if b = byte '-' then (true, c.advance)
      else if b = byte '+' then (false, c.advance)
      else (false, c)
  | none => (false, c)

/-- What ends a value is no sign. -/
theorem signOf_append (ends : Ends rest) (bytes : Bytes) (p p' : Place)
    : (signOf ⟨bytes ++ rest, p'⟩).1 = (signOf ⟨bytes, p⟩).1
      ∧ (signOf ⟨bytes ++ rest, p'⟩).2.rest = (signOf ⟨bytes, p⟩).2.rest ++ rest := by
  cases bytes with
  | nil =>
      cases rest with
      | nil => exact ⟨rfl, rfl⟩
      | cons b rest =>
          obtain ⟨-, -, -, -, plus, minus⟩ := ends.not_number rfl
          simp [signOf, peek?, plus, minus]
  | cons b bytes =>
      simp only [signOf, List.cons_append, peek?_cons, advance_cons]
      repeat' split
      all_goals exact ⟨rfl, rfl⟩

/-- The digits of an exponent behind its sign. -/
def exponentDigits (scalesZero negative : Bool) (c : Cursor) : Except Failure (Int × Cursor) :=
  if c.digits.1.isEmpty then
    match c.peek? with
    | none => .error (c.behind .endInValue)
    | some _ => .error (c.advance.behind .invalidNumber)
  else
    if (takeDigits largestExponent 0 c.digits.1).2 < c.digits.1.length && !negative && !scalesZero
    then .error ((c.skip ((takeDigits largestExponent 0 c.digits.1).2 + 1)).behind .numberOutOfRange)
    else
      let n : Int := Decimal.digitsValue c.digits.1
      .ok (if negative then -n else n, c.digits.2)

/-- An exponent is a sign and digits behind it. -/
theorem exponent_eq (scalesZero : Bool) (c : Cursor)
    : exponent scalesZero c = exponentDigits scalesZero (signOf c).1 (signOf c).2 :=
  rfl

/-- The digits of an exponent end where no digit follows. -/
theorem local_exponentDigits (scalesZero negative : Bool)
    : Local (exponentDigits scalesZero negative) := by
  intro bytes p a after h rest p' ends
  obtain ⟨same, later⟩ := digits_append ends bytes p p'
  simp only [exponentDigits, same] at h ⊢
  cases none : (digits ⟨bytes, p⟩).1.isEmpty with
  | true =>
      simp only [none, ↓reduceIte] at h
      split at h <;> cases h
  | false =>
      simp only [none, Bool.false_eq_true, ↓reduceIte] at h ⊢
      split at h
      · cases h
      · next fits =>
          cases h
          rw [if_neg fits]
          exact Yields.ok ⟨rfl, later⟩

/-- An exponent is local, as its sign and its digits are. -/
theorem local_exponent (scalesZero : Bool) : Local (exponent scalesZero) := by
  intro bytes p a after h rest p' ends
  obtain ⟨sign, behind⟩ := signOf_append ends bytes p p'
  rw [exponent_eq] at h
  have read := local_exponentDigits _ _ _ _ _ _ h rest (signOf ⟨bytes ++ rest, p'⟩).2.place ends
  rw [← behind, ← sign] at read
  exact read

/-- Without a mark there is no exponent, whatever follows. -/
theorem local_exponentIfAny (scalesZero : Bool) : Local (exponentIfAny scalesZero) := by
  intro bytes p a after h rest p' ends
  cases bytes with
  | nil =>
      cases h
      unfold exponentIfAny
      split
      · next b next =>
          have other : ¬(b = byte 'e' || b = byte 'E') := by
            simp [(ends.not_number next).2.2.1, (ends.not_number next).2.2.2.1]
          rw [if_neg other]
          exact Yields.ok ⟨rfl, rfl⟩
      · exact Yields.ok ⟨rfl, rfl⟩
  | cons b bytes =>
      simp only [exponentIfAny, List.cons_append, peek?_cons, advance_cons] at h ⊢
      split at h
      · next mark =>
          obtain ⟨⟨e, c⟩, read, h⟩ := bind_eq_ok_iff.mp h
          cases h
          rw [if_pos mark]
          refine (local_exponent scalesZero _ _ _ _ read rest _ ends).bind ?_
          rintro ⟨_, c'⟩ ⟨rfl, later⟩
          exact Yields.ok ⟨rfl, later⟩
      · next other =>
          cases h
          rw [if_neg other]
          exact Yields.ok ⟨rfl, rfl⟩

/-- A number is local part by part. -/
theorem local_number (negative : Bool) : Local (number negative) := by
  intro bytes p j after h rest p' ends
  unfold number at h ⊢
  obtain ⟨⟨whole, c₁⟩, read, h⟩ := bind_eq_ok_iff.mp h
  refine (local_wholeDigits _ _ _ _ read rest p' ends).bind ?_
  rintro ⟨_, ⟨_, q₁⟩⟩ ⟨rfl, rfl⟩
  obtain ⟨⟨fraction, c₂⟩, read, h⟩ := bind_eq_ok_iff.mp h
  refine (local_fractionDigits _ _ _ _ read rest q₁ ends).bind ?_
  rintro ⟨_, ⟨_, q₂⟩⟩ ⟨rfl, rfl⟩
  obtain ⟨⟨exponent, c₃⟩, read, h⟩ := bind_eq_ok_iff.mp h
  refine (local_exponentIfAny _ _ _ _ _ read rest q₂ ends).bind ?_
  rintro ⟨_, ⟨_, q₃⟩⟩ ⟨rfl, rfl⟩
  simp only at h ⊢
  split at h
  · cases h
    exact Yields.ok ⟨rfl, rfl⟩
  · split at h
    · cases h
      exact Yields.ok ⟨rfl, rfl⟩
    · cases h

-----------------------------------------------------------------------------------------
-- Whole numbers
-----------------------------------------------------------------------------------------

/-- The byte of a digit is a digit, and it stands for the same one. -/
theorem byte_digit {d : Char} (h : d.isDigit = true)
    : isDigit (byte d) = true ∧ Char.ofNat (byte d).toNat = d := by
  obtain ⟨low, high⟩ := Char.isDigit_iff_toNat.mp h
  have code : (byte d).toNat = d.toNat := by
    have below : '9'.toNat < 256 := by decide
    exact Nat.mod_eq_of_lt (by omega)
  refine ⟨?_, by rw [code, Char.ofNat_toNat]⟩
  simp only [isDigit, Bool.and_eq_true, decide_eq_true_eq, UInt8.le_iff_toNat_le, code]
  exact ⟨low, high⟩

/-- Bytes of digits are read as these digits, to the end. -/
theorem digits_map_byte {ds : List Char} (h : ∀ d ∈ ds, d.isDigit = true) (p : Place)
    : (digits ⟨ds.map byte, p⟩).1 = ds ∧ (digits ⟨ds.map byte, p⟩).2.rest = [] := by
  have all : (ds.map byte).takeWhile isDigit = ds.map byte := by
    refine List.takeWhile_eq_self_iff.mpr fun b member => ?_
    obtain ⟨d, inside, rfl⟩ := List.mem_map.mp member
    exact (byte_digit (h d inside)).1
  constructor
  · change ((ds.map byte).takeWhile isDigit).map _ = ds
    rw [all, List.map_map]
    exact (List.map_congr_left fun d inside => (byte_digit (h d inside)).2).trans (List.map_id ds)
  · simp only [digits, rest_skip]
    change List.drop ((ds.map byte).takeWhile isDigit).length _ = _
    rw [all, List.drop_length]

/-- The digits of a number stand for that number. -/
theorem digitsValue_toDigits (n : Nat) : Decimal.digitsValue (Nat.toDigits 10 n) = n :=
  Nat.ofDigitChars_ten_toDigits

/-- No number but zero starts with a zero. -/
theorem head?_toDigits_ne_zero {n : Nat} (h : 0 < n) : (Nat.toDigits 10 n).head? ≠ some '0' := by
  induction n using Nat.strongRecOn with
  | ind n ih =>
      rcases Nat.lt_or_ge n 10 with small | large
      · rw [Nat.toDigits_of_lt_base small]
        have digits : ∀ n < 10, 0 < n → [Nat.digitChar n].head? ≠ some '0' := by decide
        exact digits n small h
      · rw [Nat.toDigits_of_base_le (by decide) large, List.head?_append]
        have first := ih (n / 10) (by omega) (by omega)
        cases front : (Nat.toDigits 10 (n / 10)).head? with
        | none => exact absurd (List.head?_eq_none_iff.mp front) Nat.toDigits_ne_nil
        | some d =>
            rw [front] at first
            exact first

/-- A zero stands alone. -/
theorem toDigits_ne_zero_cons (n : Nat) (d : Char) (ds : List Char)
    : Nat.toDigits 10 n ≠ '0' :: d :: ds := by
  intro same
  rcases Nat.eq_zero_or_pos n with rfl | positive
  · cases same
  · exact head?_toDigits_ne_zero positive (by rw [same, List.head?_cons])

/-- A whole number is read from its digits and its sign. -/
theorem number_toDigits (negative : Bool) (n : Nat) {i : Int}
    (whole : wholeNumber? negative (Nat.toDigits 10 n) = some i) (p : Place)
    : ∃ c, number negative ⟨(Nat.toDigits 10 n).map byte, p⟩ = .ok (.int i, c) ∧ c.rest = [] := by
  have digit (d : Char) (member : d ∈ Nat.toDigits 10 n) : d.isDigit = true :=
    Nat.isDigit_of_mem_toDigits (by decide) (by decide) member
  obtain ⟨same, all⟩ := digits_map_byte digit p
  have first : wholeDigits ⟨(Nat.toDigits 10 n).map byte, p⟩
      = .ok (Nat.toDigits 10 n, (digits ⟨(Nat.toDigits 10 n).map byte, p⟩).2) := by
    unfold wholeDigits
    simp only [same]
    split
    · next none => exact absurd none Nat.toDigits_ne_nil
    · next zeros => exact absurd zeros (toDigits_ne_zero_cons _ _ _)
    · rfl
  generalize (digits ⟨(Nat.toDigits 10 n).map byte, p⟩).2 = c at *
  obtain ⟨_, q⟩ := c
  cases all
  refine ⟨⟨[], q⟩, ?_, rfl⟩
  simp only [number, first, ok_bind, fractionDigits, exponentIfAny, peek?, List.head?_nil, whole]

end Raml.Json.Cursor
