import Raml.Json.Skip
import Raml.Proofs.Json.Numbers

/-! The grammar of JSON, byte by byte, and what is passed when parts of a text are read.

The grammar does not say what values are, except for strings and whole numbers, and it puts up with
what nothing is made of: strings need not be text, objects may hold a key twice, and brackets may be
nested to any depth. Behind an opening bracket, lists and objects have one grammar.

Reading splits what comes next into what has been passed, which follows the grammar and means what is
read, and what is left over.
-/

namespace Raml.Json.Grammar

open Cursor (Bracket byte hexValue? isBlank isDigit isPlain)

-----------------------------------------------------------------------------------------
-- Numbers
-----------------------------------------------------------------------------------------

/-- Bytes between tokens. -/
def Blanks (bytes : Bytes) : Prop := ∀ b ∈ bytes, isBlank b = true

/-- One digit, or several. -/
structure Digits (bytes : Bytes) : Prop where
  nonempty : bytes ≠ []
  each : ∀ b ∈ bytes, isDigit b = true

/-- The digits before a point. A zero in front stands alone. -/
structure Leading (bytes : Bytes) : Prop where
  digits : Digits bytes
  zero : ∀ more, bytes = byte '0' :: more → more = []

/-- A point and the digits behind it, or nothing. -/
inductive Fraction : Bytes → Prop where
  | none : Fraction []
  | some {ds : Bytes} (digits : Digits ds) : Fraction (byte '.' :: ds)

/-- The mark of an exponent, its sign and its digits, or nothing. -/
inductive Exponent : Bytes → Prop where
  | none : Exponent []
  | some {mark : UInt8} {sign ds : Bytes} (isMark : mark = byte 'e' ∨ mark = byte 'E')
      (isSign : sign ∈ [[], [byte '+'], [byte '-']]) (digits : Digits ds)
      : Exponent (mark :: (sign ++ ds))

inductive Number : Bytes → Prop where
  | mk {sign ds fraction exponent : Bytes} (isSign : sign ∈ [[], [byte '-']]) (leading : Leading ds)
      (isFraction : Fraction fraction) (isExponent : Exponent exponent)
      : Number (sign ++ (ds ++ (fraction ++ exponent)))

/-- The number that digits stand for. -/
def decimal (ds : Bytes) : Nat := Decimal.digitsValue (ds.map fun b => Char.ofNat b.toNat)

/-- A number that is written without a point and without an exponent. -/
inductive Whole : Bytes → Int → Prop where
  | natural {ds : Bytes} (leading : Leading ds) : Whole ds (decimal ds)
  | negative {ds : Bytes} (leading : Leading ds) : Whole (byte '-' :: ds) (-decimal ds)

/-- A whole number has neither a fraction nor an exponent. -/
theorem Whole.number {bytes : Bytes} {i : Int} (h : Whole bytes i) : Number bytes := by
  cases h with
  | natural leading =>
      have number : Number ([] ++ (bytes ++ ([] ++ []))) := .mk (by simp) leading .none .none
      simpa using number
  | @negative ds leading =>
      have number : Number ([byte '-'] ++ (ds ++ ([] ++ []))) := .mk (by simp) leading .none .none
      simpa using number

-----------------------------------------------------------------------------------------
-- Strings
-----------------------------------------------------------------------------------------

/-- The letters that stand behind backslashes, each with its character. -/
def letters : List (Char × Char) :=
  [('"', '"'), ('\\', '\\'), ('/', '/'), ('b', Char.ofNat 8), ('f', Char.ofNat 12), ('n', '\n'),
    ('r', '\r'), ('t', '\t')]

/-- The number that four hexadecimal digits stand for. -/
def hex? : Bytes → Option Nat
  | [a, b, d, e] => do
      return (((← hexValue? a) * 16 + (← hexValue? b)) * 16 + (← hexValue? d)) * 16 + (← hexValue? e)
  | _ => none

/-- What stands behind a backslash. -/
inductive Escape : Bytes → Prop where
  | letter {l c : Char} (h : (l, c) ∈ letters) : Escape [byte l]
  | code {ds : Bytes} {n : Nat} (h : hex? ds = some n) : Escape (byte 'u' :: ds)

/-- What stands between quotes. -/
inductive Body : Bytes → Prop where
  | nil : Body []
  | plain {b : UInt8} {rest : Bytes} (h : isPlain b = true) (body : Body rest) : Body (b :: rest)
  | escape {e rest : Bytes} (h : Escape e) (body : Body rest) : Body (byte '\\' :: (e ++ rest))

/-- What stands between quotes, and the bytes of the text that is meant. A code unit is a character
unless it is one half of a pair. -/
inductive Means : Bytes → Bytes → Prop where
  | nil : Means [] []
  | plain {b : UInt8} {rest meant : Bytes} (h : isPlain b = true) (later : Means rest meant)
      : Means (b :: rest) (b :: meant)
  | letter {l c : Char} {rest meant : Bytes} (h : (l, c) ∈ letters) (later : Means rest meant)
      : Means (byte '\\' :: ([byte l] ++ rest)) (String.utf8EncodeChar c ++ meant)
  | code {ds rest meant : Bytes} {n : Nat} (h : hex? ds = some n) (whole : n < 0xD800 ∨ 0xDFFF < n)
      (later : Means rest meant)
      : Means (byte '\\' :: (byte 'u' :: ds ++ rest)) (String.utf8EncodeChar (Char.ofNat n) ++ meant)
  | pair {ds ds' rest meant : Bytes} {n m : Nat} (h : hex? ds = some n) (h' : hex? ds' = some m)
      (first : 0xD800 ≤ n ∧ n ≤ 0xDBFF) (second : 0xDC00 ≤ m ∧ m ≤ 0xDFFF)
      (later : Means rest meant)
      : Means (byte '\\' :: (byte 'u' :: ds ++ byte '\\' :: (byte 'u' :: ds' ++ rest)))
          (String.utf8EncodeChar (Char.ofNat (0x10000 + (n - 0xD800) * 1024 + (m - 0xDC00)))
            ++ meant)

/-- Whatever means something is well formed. -/
theorem Means.body {bytes meant : Bytes} (h : Means bytes meant) : Body bytes := by
  induction h with
  | nil => exact .nil
  | plain h _ ih => exact .plain h ih
  | letter h _ ih => exact .escape (.letter h) ih
  | code h _ _ ih => exact .escape (.code h) ih
  | pair h h' _ _ _ ih => exact .escape (.code h) (.escape (.code h') ih)

/-- A string: its quotes and what stands between them. -/
def quoted (body : Bytes) : Bytes := byte '"' :: (body ++ [byte '"'])

/-- A string, and the text that is meant. -/
inductive Text : Bytes → String → Prop where
  | mk {body meant : Bytes} {s : String} (means : Means body meant)
      (text : Utf8.text? meant = some s)
      : Text (quoted body) s

-----------------------------------------------------------------------------------------
-- Values
-----------------------------------------------------------------------------------------

/-- The byte that opens a bracket. -/
def opening : Bracket → UInt8
  | .list => byte '['
  | .object => byte '{'

/-- What stands before the value in an entry between brackets: nothing in a list, a key and a colon
in an object. The key comes first, with its quotes. -/
inductive Key : Bracket → Bytes → Bytes → Prop where
  | list : Key .list [] []
  | object {body blanks : Bytes} (isBody : Body body) (isBlank : Blanks blanks)
      : Key .object (quoted body) (quoted body ++ (blanks ++ [byte ':']))

/-- What stands before an entry: a comma, if there is a value before it, and blanks. -/
inductive Gap : Bool → Bytes → Prop where
  | first {blanks : Bytes} (h : Blanks blanks) : Gap false blanks
  | later {before after : Bytes} (h : Blanks before) (h' : Blanks after)
      : Gap true (before ++ byte ',' :: after)

mutual

inductive IsValue : Bytes → Prop where
  | word {w : String} (h : w ∈ ["null", "true", "false"]) : IsValue (w.toList.map byte)
  | number {bytes : Bytes} (h : Number bytes) : IsValue bytes
  | string {body : Bytes} (h : Body body) : IsValue (quoted body)
  | bracket {bracket : Bracket} {entries : List (Bytes × Bytes)} {tail : Bytes}
      (h : Tail bracket false entries tail) : IsValue (opening bracket :: tail)

/-- What follows in an open bracket, up to the one that closes it, where the flag says that a value
lies behind. The entries are keys and values as they are written. -/
inductive Tail : Bracket → Bool → List (Bytes × Bytes) → Bytes → Prop where
  | close {bracket : Bracket} {behindValue : Bool} {blanks : Bytes} (h : Blanks blanks)
      : Tail bracket behindValue [] (blanks ++ [bracket.closing])
  | entry {bracket : Bracket} {behindValue : Bool} {entries : List (Bytes × Bytes)}
      {gap name key blanks value tail : Bytes} (isGap : Gap behindValue gap)
      (isKey : Key bracket name key) (isBlank : Blanks blanks) (isValue : IsValue value)
      (isTail : Tail bracket true entries tail)
      : Tail bracket behindValue ((name, value) :: entries)
          (gap ++ (key ++ (blanks ++ (value ++ tail))))

end

end Raml.Json.Grammar

namespace Raml.Json.Cursor

open Grammar

variable {c c' : Cursor} {b : UInt8}

-----------------------------------------------------------------------------------------
-- Blanks and words
-----------------------------------------------------------------------------------------

/-- The byte that comes next is the first one of what is left. -/
theorem rest_of_peek? (h : c.peek? = some b) : c.rest = b :: c.advance.rest := by
  obtain ⟨_ | ⟨first, rest⟩, p⟩ := c
  · cases h
  · cases h
    rfl

/-- What is skipped is blank. -/
theorem blanks_skipBlanks (c : Cursor)
    : ∃ blanks, Blanks blanks ∧ c.rest = blanks ++ c.skipBlanks.rest := by
  obtain ⟨bytes, p⟩ := c
  induction bytes generalizing p with
  | nil => exact ⟨[], nofun, rfl⟩
  | cons first bytes ih =>
      simp only [skipBlanks, skipBlanksAt] at ih ⊢
      split
      · next blank =>
          obtain ⟨blanks, each, split⟩ := ih (step p first)
          exact ⟨first :: blanks, List.forall_mem_cons.mpr ⟨blank, each⟩,
            congrArg (List.cons first) split⟩
      · exact ⟨[], nofun, rfl⟩

/-- A word has been passed letter by letter. -/
theorem rest_of_word {letters : List Char} (h : word letters c = .ok c')
    : c.rest = letters.map byte ++ c'.rest := by
  induction letters generalizing c with
  | nil =>
      cases h
      rfl
  | cons letter letters ih =>
      simp only [word] at h
      split at h
      · cases h
      · next b next =>
          split at h
          · next same =>
              rw [rest_of_peek? next, same, ih h]
              rfl
          · cases h

-----------------------------------------------------------------------------------------
-- Numbers
-----------------------------------------------------------------------------------------

/-- Digits are passed up to the first byte that is none. -/
theorem rest_digits (c : Cursor)
    : ∃ ds, (∀ b ∈ ds, isDigit b = true) ∧ c.rest = ds ++ c.digits.2.rest
      ∧ c.digits.1 = ds.map fun b => Char.ofNat b.toNat := by
  refine ⟨c.rest.takeWhile isDigit, fun b => List.mem_takeWhile_imp, ?_, rfl⟩
  have left : c.digits.2.rest = c.rest.drop (c.rest.takeWhile isDigit).length := rest_skip _ c
  rw [left]
  exact (List.prefix_iff_eq_append.mp (List.takeWhile_prefix _)).symm

/-- There are digits, if they are not none. -/
theorem passed_digits (some : c.digits.1.isEmpty = false)
    : ∃ ds, Digits ds ∧ c.rest = ds ++ c.digits.2.rest
      ∧ c.digits.1 = ds.map fun b => Char.ofNat b.toNat := by
  obtain ⟨ds, each, split, same⟩ := rest_digits c
  refine ⟨ds, ⟨?_, each⟩, split, same⟩
  rintro rfl
  rw [same] at some
  cases some

/-- Digits that are no more than a zero alone, or that do not start with one, may lead. -/
theorem leading_of_digits {ds : Bytes} (each : ∀ b ∈ ds, isDigit b = true) (some : ds ≠ [])
    (alone : ∀ d more, ds.map (fun b => Char.ofNat b.toNat) ≠ '0' :: d :: more)
    : Leading ds := by
  refine ⟨⟨some, each⟩, ?_⟩
  rintro (_ | ⟨d, more⟩) rfl
  · rfl
  · exact absurd rfl (alone (Char.ofNat d.toNat) (more.map fun b => Char.ofNat b.toNat))

/-- The digits before a point have been passed, and no zero stands before others. -/
theorem passed_wholeDigits {ds : List Char} (h : wholeDigits c = .ok (ds, c'))
    : ∃ bytes, Leading bytes ∧ c.rest = bytes ++ c'.rest
      ∧ ds = bytes.map fun b => Char.ofNat b.toNat := by
  obtain ⟨bytes, each, split, same⟩ := rest_digits c
  unfold wholeDigits at h
  generalize c.digits = found at h split same
  obtain ⟨found, after⟩ := found
  cases same
  simp only at h
  split at h
  · split at h <;> cases h
  · cases h
  · next some alone =>
      cases h
      refine ⟨bytes, leading_of_digits each ?_ alone, split, rfl⟩
      rintro rfl
      exact some rfl

/-- Where there is no fraction nothing has been passed. -/
theorem eq_of_fractionDigits (h : fractionDigits c = .ok (none, c')) : c' = c := by
  unfold fractionDigits at h
  split at h
  · split at h
    · simp only at h
      split at h
      · split at h <;> cases h
      · cases h
    · cases h
      rfl
  · cases h
    rfl

/-- Where there is no exponent nothing has been passed. -/
theorem eq_of_exponentIfAny {scalesZero : Bool} (h : exponentIfAny scalesZero c = .ok (none, c'))
    : c' = c := by
  unfold exponentIfAny at h
  split at h
  · split at h
    · obtain ⟨⟨e, c₁⟩, -, h⟩ := bind_eq_ok_iff.mp h
      cases h
    · cases h
      rfl
  · cases h
    rfl

/-- A number that fits is the one that its digits stand for. -/
theorem eq_of_wholeNumber? {negative : Bool} {ds : List Char} {i : Int}
    (h : wholeNumber? negative ds = some i)
    : i = if negative then -(Decimal.digitsValue ds : Int) else Decimal.digitsValue ds := by
  unfold wholeNumber? at h
  cases negative with
  | true =>
      simp only [if_true] at h ⊢
      split at h
      · cases h
        rfl
      · cases h
  | false =>
      simp only [Bool.false_eq_true, if_false] at h ⊢
      split at h
      · cases h
        rfl
      · cases h

/-- A number that is read as a whole one is written as one. -/
theorem passed_number {negative : Bool} {i : Int} (h : number negative c = .ok (.int i, c'))
    : ∃ ds, Leading ds ∧ c.rest = ds ++ c'.rest
      ∧ i = if negative then -(decimal ds : Int) else decimal ds := by
  unfold number at h
  obtain ⟨⟨whole, c₁⟩, first, h₁⟩ := bind_eq_ok_iff.mp h
  obtain ⟨⟨fraction, c₂⟩, second, h₂⟩ := bind_eq_ok_iff.mp h₁
  obtain ⟨⟨exponent, c₃⟩, third, h₃⟩ := bind_eq_ok_iff.mp h₂
  obtain ⟨ds, leading, split, rfl⟩ := passed_wholeDigits first
  simp only at h₃ second third
  split at h₃
  · next value =>
      cases h₃
      cases eq_of_fractionDigits second
      cases eq_of_exponentIfAny third
      exact ⟨ds, leading, split, eq_of_wholeNumber? value⟩
  · split at h₃ <;> cases h₃

-----------------------------------------------------------------------------------------
-- Strings
-----------------------------------------------------------------------------------------

/-- Four digits have been passed, and they are those of the number. -/
theorem passed_hex4 {n : Nat} (h : hex4 c = .ok (n, c'))
    : ∃ ds, hex? ds = some n ∧ c.rest = ds ++ c'.rest := by
  obtain ⟨bytes, p⟩ := c
  unfold hex4 at h
  split at h
  · next a b d e rest bytes =>
      cases bytes
      simp only at h
      split at h
      · next some₁ some₂ some₃ some₄ =>
          cases h
          exact ⟨[a, b, d, e], by simp [hex?, some₁, some₂, some₃, some₄], rfl⟩
      · cases h
  · cases h

theorem passed_pairMark {ch : Char} (h : pairMark ch c = .ok c') : c.rest = byte ch :: c'.rest := by
  unfold pairMark at h
  split at h
  · cases h
  · next b next =>
      split at h
      · next same =>
          cases h
          rw [rest_of_peek? next, same]
      · cases h

/-- A code unit is a character, or two of them in a row are one. -/
theorem passed_unicodeEscape {ch : Char} (h : unicodeEscape c = .ok (ch, c'))
    {rest meant : Bytes} (later : Means rest meant)
    : ∃ e, c.rest = e ++ c'.rest
      ∧ Means (byte '\\' :: (byte 'u' :: e ++ rest)) (String.utf8EncodeChar ch ++ meant) := by
  unfold unicodeEscape at h
  obtain ⟨⟨n, c₁⟩, first, h₁⟩ := bind_eq_ok_iff.mp h
  obtain ⟨ds, hex, split⟩ := passed_hex4 first
  simp only at h₁ split
  split at h₁
  · cases h₁
  split at h₁
  · next high =>
      obtain ⟨c₂, backslash, h₂⟩ := bind_eq_ok_iff.mp h₁
      obtain ⟨c₃, u, h₃⟩ := bind_eq_ok_iff.mp h₂
      obtain ⟨⟨m, c₄⟩, second, h₄⟩ := bind_eq_ok_iff.mp h₃
      obtain ⟨ds', hex', split'⟩ := passed_hex4 second
      simp only at h₄ split'
      split at h₄
      · next low =>
          obtain ⟨rfl, rfl⟩ := Prod.mk.inj (Except.ok.inj h₄)
          refine ⟨ds ++ byte '\\' :: byte 'u' :: ds', ?_, ?_⟩
          · rw [split, passed_pairMark backslash, passed_pairMark u, split']
            simp
          · simpa using Means.pair hex hex' high low later
      · cases h₄
  · cases h₁
    exact ⟨ds, split, .code hex (by omega) later⟩

/-- An escape is passed, and what it means is read. -/
theorem passed_escape {ch : Char} (h : escape c = .ok (ch, c')) {rest meant : Bytes}
    (later : Means rest meant)
    : ∃ e, c.rest = e ++ c'.rest
      ∧ Means (byte '\\' :: (e ++ rest)) (String.utf8EncodeChar ch ++ meant) := by
  unfold escape at h
  split at h
  · cases h
  next b next =>
  have split := rest_of_peek? next
  simp only at h
  have letter {l ch : Char} (same : b = byte l) (listed : (l, ch) ∈ letters) :
      ∃ e, c.rest = e ++ c.advance.rest
        ∧ Means (byte '\\' :: (e ++ rest)) (String.utf8EncodeChar ch ++ meant) :=
    ⟨[byte l], by rw [split, same]; rfl, .letter listed later⟩
  iterate 8
    split at h
    · cases h
      exact letter ‹_› (by decide)
  split at h
  · next u =>
      obtain ⟨e, split', means⟩ := passed_unicodeEscape h later
      exact ⟨byte 'u' :: e, by rw [split, u, split']; rfl, means⟩
  · cases h

/-- The rest of a string is passed, and its meaning is put behind what has been read. -/
theorem passed_stringRest {fuel : Nat} {done : Bytes} {s : String}
    (h : stringRest fuel c done = .ok (s, c'))
    : ∃ body meant, Means body meant ∧ Utf8.text? (done.reverse ++ meant) = some s
      ∧ c.rest = body ++ byte '"' :: c'.rest := by
  induction fuel generalizing c done with
  | zero => cases h
  | succ fuel ih =>
      rw [stringRest] at h
      split at h
      · cases h
      next b next =>
      have split := rest_of_peek? next
      split at h
      · next quote =>
          split at h
          · next text =>
              cases h
              exact ⟨[], [], .nil, by simpa using text, by rw [split, quote]; rfl⟩
          · cases h
      split at h
      · next backslash =>
          obtain ⟨⟨ch, c₁⟩, read, h₁⟩ := bind_eq_ok_iff.mp h
          obtain ⟨body, meant, means, text, rest⟩ := ih h₁
          obtain ⟨e, passed, means⟩ := passed_escape read means
          refine ⟨_, _, means, ?_, ?_⟩
          · rw [Bytes.ofText_singleton] at text
            simpa using text
          · rw [split, backslash, passed, rest]
            simp
      split at h
      · cases h
      · next quote backslash control =>
          obtain ⟨body, meant, means, text, rest⟩ := ih h
          have plain : isPlain b = true := by simp [isPlain, quote, backslash, control]
          exact ⟨b :: body, b :: meant, .plain plain means, by simpa using text,
            by rw [split, rest]; rfl⟩

/-- Behind its opening quote, a string is passed and read. -/
theorem passed_string {s : String} (h : c.string = .ok (s, c'))
    : ∃ text, Text text s ∧ byte '"' :: c.rest = text ++ c'.rest := by
  obtain ⟨body, meant, means, text, split⟩ := passed_stringRest h
  exact ⟨quoted body, .mk means (by simpa using text), by rw [split, quoted]; simp⟩

-----------------------------------------------------------------------------------------
-- Between entries
-----------------------------------------------------------------------------------------

/-- What stands before the next item is passed. -/
theorem passed_nextItem {first : Bool} (h : c.nextItem first = .ok (some c'))
    : ∃ gap, Gap (!first) gap ∧ c.rest = gap ++ c'.rest := by
  obtain ⟨blanks, areBlanks, split⟩ := blanks_skipBlanks c
  unfold nextItem at h
  simp only at h
  split at h
  · cases h
  next b next =>
  split at h
  · cases h
  split at h
  · next isFirst =>
      cases h
      cases isFirst
      exact ⟨blanks, .first areBlanks, split⟩
  split at h
  · next later comma =>
      obtain ⟨blanks', areBlanks', split'⟩ := blanks_skipBlanks c.skipBlanks.advance
      split at h
      · cases h
      split at h
      · cases h
      · cases h
        cases Bool.not_eq_true _ ▸ later
        refine ⟨_, .later areBlanks areBlanks', ?_⟩
        rw [split, rest_of_peek? next, comma, split']
        simp
  · cases h

/-- The opening quote of a key. -/
def openKey (c : Cursor) : Except Failure (Option Cursor) :=
  match c.peek? with
  | none => .error (c.behind .endInValue)
  | some b =>
      if b = byte '"' then .ok (some c.advance)
      else if b = byte '}' then .error (c.ahead .trailingComma)
      else .error (c.ahead .keyNotString)

/-- A key comes first, or it follows a comma. -/
theorem nextKey_eq (first : Bool) (c : Cursor)
    : c.nextKey first
      = match c.skipBlanks.peek? with
        | none => .error (c.skipBlanks.behind .endInObject)
        | some b =>
            if b = byte '}' then .ok none
            else if first then c.skipBlanks.openKey
            else if b = byte ',' then c.skipBlanks.advance.skipBlanks.openKey
            else .error (c.skipBlanks.ahead .expectedObjectEnd) :=
  rfl

/-- The quote in front of a key has been passed. -/
theorem passed_openKey (h : c.openKey = .ok (some c')) : c.rest = byte '"' :: c'.rest := by
  unfold openKey at h
  split at h
  · cases h
  next b next =>
  split at h
  · next quote =>
      cases h
      rw [rest_of_peek? next, quote]
  · split at h <;> cases h

/-- What stands before the next key is passed, and its opening quote. -/
theorem passed_nextKey {first : Bool} (h : c.nextKey first = .ok (some c'))
    : ∃ gap, Gap (!first) gap ∧ c.rest = gap ++ byte '"' :: c'.rest := by
  obtain ⟨blanks, areBlanks, split⟩ := blanks_skipBlanks c
  rw [nextKey_eq] at h
  split at h
  · cases h
  next b next =>
  split at h
  · cases h
  split at h
  · next isFirst =>
      cases isFirst
      exact ⟨blanks, .first areBlanks, by rw [split, passed_openKey h]⟩
  split at h
  · next later comma =>
      obtain ⟨blanks', areBlanks', split'⟩ := blanks_skipBlanks c.skipBlanks.advance
      cases Bool.not_eq_true _ ▸ later
      refine ⟨_, .later areBlanks areBlanks', ?_⟩
      rw [split, rest_of_peek? next, comma, split', passed_openKey h]
      simp
  · cases h

/-- A mark is passed, and the blanks before it. -/
theorem passed_mark {ch : Char} (next : c.skipBlanks.peek? = some b) (same : b = byte ch)
    : ∃ blanks, Blanks blanks ∧ c.rest = blanks ++ byte ch :: c.skipBlanks.advance.rest := by
  obtain ⟨blanks, areBlanks, split⟩ := blanks_skipBlanks c
  exact ⟨blanks, areBlanks, by rw [split, rest_of_peek? next, same]⟩

/-- There may be blanks before the colon. -/
theorem passed_colon (h : c.colon = .ok c')
    : ∃ blanks, Blanks blanks ∧ c.rest = blanks ++ byte ':' :: c'.rest := by
  unfold colon at h
  simp only at h
  split at h
  · cases h
  next b next =>
  split at h
  · next same =>
      cases h
      exact passed_mark next same
  · cases h

/-- There may be blanks before the bracket. -/
theorem passed_endList (h : c.endList = .ok c')
    : ∃ blanks, Blanks blanks ∧ c.rest = blanks ++ byte ']' :: c'.rest := by
  unfold endList at h
  simp only at h
  split at h
  · cases h
  next b next =>
  split at h
  · next same =>
      cases h
      exact passed_mark next same
  split at h
  · split at h <;> cases h
  · cases h

/-- There may be blanks before the brace. -/
theorem passed_endObject (h : c.endObject = .ok c')
    : ∃ blanks, Blanks blanks ∧ c.rest = blanks ++ byte '}' :: c'.rest := by
  unfold endObject at h
  simp only at h
  split at h
  · cases h
  next b next =>
  split at h
  · next same =>
      cases h
      exact passed_mark next same
  · split at h <;> cases h

end Raml.Json.Cursor
