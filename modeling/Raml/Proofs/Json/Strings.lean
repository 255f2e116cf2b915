import Raml.Json.Printer
import Raml.Json.Reader
import Raml.Proofs.Text.Utf8
import Raml.Proofs.Guarantee
import Raml.Proofs.Outcomes

/-! Strings read back: what is written between quotes is the text that was to be written.
-/

namespace Raml.Json.Cursor

variable {α : Type} {rest done : Bytes} {p : Place} {fuel : Nat} {b : UInt8}

-----------------------------------------------------------------------------------------
-- Cursors
-----------------------------------------------------------------------------------------

@[simp] theorem peek?_cons : (⟨b :: rest, p⟩ : Cursor).peek? = some b := rfl

@[simp] theorem advance_cons : (⟨b :: rest, p⟩ : Cursor).advance = ⟨rest, step p b⟩ := rfl

/-- What is not blank is not skipped. -/
theorem skipBlanks_cons (h : isBlank b = false)
    : (⟨b :: rest, p⟩ : Cursor).skipBlanks = ⟨b :: rest, p⟩ := by
  rw [skipBlanks, skipBlanksAt, if_neg (by rw [h]; exact Bool.false_ne_true)]

/-- Characters with a code below 128 are single bytes. -/
theorem ofText_ascii (cs : List Char) (h : cs.all fun c => c.toNat < 128)
    : Bytes.ofText (String.ofList cs) = cs.map byte := by
  rw [Bytes.ofText_ofList]
  induction cs with
  | nil => rfl
  | cons c cs ih =>
      rw [List.all_cons, Bool.and_eq_true, decide_eq_true_eq] at h
      rw [List.flatMap_cons, Bytes.utf8EncodeChar_ascii h.1, ih h.2]
      rfl

/-- What is read is `a`, if anything is, and `rest` is left over. -/
def Reads (x : Except Failure (α × Cursor)) (a : α) (rest : Bytes) : Prop :=
  Yields x fun (b, c) => b = a ∧ c.rest = rest

-----------------------------------------------------------------------------------------
-- Bytes that stand for themselves
-----------------------------------------------------------------------------------------

/-- Whether a byte stands for itself in a string. -/
def isPlain (b : UInt8) : Bool := b != byte '"' && b != byte '\\' && !(b < 0x20)

/-- A plain byte is added to what is done. -/
theorem stringRest_plain {s : String} (plain : isPlain b = true)
    (later : ∀ fuel p, Reads (stringRest fuel ⟨rest, p⟩ (b :: done)) s after)
    : Reads (stringRest fuel ⟨b :: rest, p⟩ done) s after := by
  simp only [isPlain, Bool.and_eq_true, bne_iff_ne, Bool.not_eq_true', decide_eq_false_iff_not]
    at plain
  obtain ⟨⟨quote, escape⟩, control⟩ := plain
  cases fuel with
  | zero => exact Yields.error _
  | succ fuel =>
      simp only [stringRest, peek?_cons, if_neg quote, if_neg escape, if_neg control, advance_cons]
      exact later _ _

/-- Plain bytes are added one by one, by induction on them. -/
theorem stringRest_plains {s : String} {bytes after : Bytes}
    (plain : ∀ b ∈ bytes, isPlain b = true)
    (later : ∀ fuel p, Reads (stringRest fuel ⟨rest, p⟩ (bytes.reverse ++ done)) s after)
    : Reads (stringRest fuel ⟨bytes ++ rest, p⟩ done) s after := by
  induction bytes generalizing fuel p done with
  | nil => exact later fuel p
  | cons b bytes ih =>
      obtain ⟨first, others⟩ := List.forall_mem_cons.mp plain
      refine stringRest_plain first fun fuel p => ih others fun fuel p => ?_
      simpa using later fuel p

/-- The bytes of an escaped character are added to what is done. -/
theorem stringRest_escape {s : String} {after bytes : Bytes} {c : Char}
    (escaped : ∀ p, Reads (escape ⟨bytes ++ rest, p⟩) c rest)
    (later : ∀ fuel p, Reads (stringRest fuel ⟨rest, p⟩
      ((String.utf8EncodeChar c).reverse ++ done)) s after)
    : Reads (stringRest fuel ⟨byte '\\' :: bytes ++ rest, p⟩ done) s after := by
  cases fuel with
  | zero => exact Yields.error _
  | succ fuel =>
      simp only [stringRest, List.cons_append, peek?_cons, advance_cons]
      rw [if_neg (by decide), if_pos trivial]
      refine (escaped _).bind ?_
      rintro ⟨_, ⟨_, p⟩⟩ ⟨rfl, rfl⟩
      rw [Bytes.ofText_singleton]
      exact later _ _

-----------------------------------------------------------------------------------------
-- Escapes
-----------------------------------------------------------------------------------------

/-- Hexadecimal digits are read back. -/
theorem hexValue?_digitChar
    : ∀ n < 16, hexValue? (UInt8.ofNat (Nat.digitChar n).toNat) = some n := by
  decide

/-- The code of a control character has two digits, behind two zeros. -/
theorem hex4_eq : ∀ n < 32,
    Json.hex4 n
      = String.ofList ['0', '0', Nat.digitChar (n / 16), Nat.digitChar (n % 16)] := by
  decide

theorem digitChar_ascii : ∀ n < 16, (Nat.digitChar n).toNat < 128 := by decide

/-- The escape of a character by its code. -/
theorem reads_unicodeEscape (rest : Bytes) (p : Place) {n : Nat} (h : n < 32)
    : Reads (escape ⟨Bytes.ofText ("u" ++ Json.hex4 n) ++ rest, p⟩) (Char.ofNat n) rest := by
  have upper := hexValue?_digitChar (n / 16) (by omega)
  have lower := hexValue?_digitChar (n % 16) (by omega)
  have zero : hexValue? (byte '0') = some 0 := by decide
  have bytes : Bytes.ofText ("u" ++ Json.hex4 n) = [byte 'u', byte '0', byte '0',
      UInt8.ofNat (Nat.digitChar (n / 16)).toNat, UInt8.ofNat (Nat.digitChar (n % 16)).toNat] := by
    rw [hex4_eq n h, show "u" = String.ofList ['u'] from rfl, ← String.ofList_append,
      ofText_ascii]
    · rfl
    · have upper := digitChar_ascii (n / 16) (by omega)
      have lower := digitChar_ascii (n % 16) (by omega)
      simp [upper, lower]
  have value : ((0 * 16 + 0) * 16 + n / 16) * 16 + n % 16 = n := by omega
  rw [bytes, escape]
  simp only [List.cons_append, List.nil_append, peek?_cons, advance_cons]
  rw [if_neg (by decide), if_neg (by decide), if_neg (by decide), if_neg (by decide),
    if_neg (by decide), if_neg (by decide), if_neg (by decide), if_neg (by decide),
    if_pos trivial, unicodeEscape, hex4]
  simp only [skip, advance_cons, zero, upper, lower, value, ok_bind]
  rw [if_neg (by omega), if_neg (by omega)]
  exact Yields.ok ⟨rfl, rfl⟩

/-- A letter behind a backslash stands for its character. -/
theorem reads_letterEscape {letter c : Char} (h : (letter, c) ∈
      [('"', '"'), ('\\', '\\'), ('n', '\n'), ('r', '\r'), ('t', '\t'), ('b', Char.ofNat 8),
        ('f', Char.ofNat 12)])
    : Reads (escape ⟨byte letter :: rest, p⟩) c rest := by
  simp only [List.mem_cons, Prod.mk.injEq, List.not_mem_nil, or_false] at h
  rcases h with ⟨rfl, rfl⟩ | ⟨rfl, rfl⟩ | ⟨rfl, rfl⟩ | ⟨rfl, rfl⟩ | ⟨rfl, rfl⟩ | ⟨rfl, rfl⟩
    | ⟨rfl, rfl⟩
  all_goals exact Yields.ok ⟨rfl, rfl⟩

/-- All bytes of a character are plain, unless it is a control character, a quote or a backslash. -/
theorem isPlain_of_mem {c : Char} (low : 32 ≤ c.toNat) (quote : c ≠ '"') (backslash : c ≠ '\\')
    {b : UInt8} (member : b ∈ String.utf8EncodeChar c) : isPlain b = true := by
  have other (d : Char) (ascii : d.toNat < 128) (h : c ≠ d) : b.toNat ≠ d.toNat := by
    rcases Nat.lt_or_ge c.toNat 128 with below | above
    · rw [Bytes.utf8EncodeChar_ascii below, List.mem_singleton] at member
      rw [member, UInt8.toNat_ofNat', Nat.mod_eq_of_lt (by omega)]
      exact fun same => h (Char.toNat_inj.mp same)
    · have := Bytes.le_of_mem_utf8EncodeChar above member
      omega
  have visible : 32 ≤ b.toNat := by
    rcases Nat.lt_or_ge c.toNat 128 with below | above
    · rw [Bytes.utf8EncodeChar_ascii below, List.mem_singleton] at member
      rw [member, UInt8.toNat_ofNat', Nat.mod_eq_of_lt (by omega)]
      exact low
    · have := Bytes.le_of_mem_utf8EncodeChar above member
      omega
  have noQuote := other '"' (by decide) quote
  have noBackslash := other '\\' (by decide) backslash
  simp only [isPlain, Bool.and_eq_true, bne_iff_ne, ne_eq, Bool.not_eq_true',
    decide_eq_false_iff_not, ← UInt8.toNat_inj, UInt8.lt_iff_toNat_lt]
  exact ⟨⟨noQuote, noBackslash⟩, Nat.not_lt.mpr visible⟩

/-- Every character is written as it stands, or behind a backslash. -/
theorem escapedChar_cases (c : Char)
    : (∃ more, Bytes.ofText (escapedChar c) = byte '\\' :: more
        ∧ ∀ rest p, Reads (escape ⟨more ++ rest, p⟩) c rest)
      ∨ escapedChar c = c.toString ∧ ∀ b ∈ String.utf8EncodeChar c, isPlain b = true := by
  have letter {l d : Char} (h : (l, d) ∈
      [('"', '"'), ('\\', '\\'), ('n', '\n'), ('r', '\r'), ('t', '\t'), ('b', Char.ofNat 8),
        ('f', Char.ofNat 12)])
      (rest : Bytes) (p : Place) : Reads (escape ⟨[byte l] ++ rest, p⟩) d rest :=
    reads_letterEscape h
  unfold escapedChar
  split
  · exact .inl ⟨[byte '"'], ofText_ascii ['\\', '"'] (by decide), letter (by simp)⟩
  · exact .inl ⟨[byte '\\'], ofText_ascii ['\\', '\\'] (by decide), letter (by simp)⟩
  · exact .inl ⟨[byte 'n'], ofText_ascii ['\\', 'n'] (by decide), letter (by simp)⟩
  · exact .inl ⟨[byte 'r'], ofText_ascii ['\\', 'r'] (by decide), letter (by simp)⟩
  · exact .inl ⟨[byte 't'], ofText_ascii ['\\', 't'] (by decide), letter (by simp)⟩
  · next quote backslash _ _ _ =>
      split
      · next code =>
          have same : c = Char.ofNat 8 := Char.toNat_inj.mp code
          have bytes := ofText_ascii ['\\', 'b'] (by decide)
          exact .inl ⟨[byte 'b'], bytes, same ▸ letter (by simp)⟩
      split
      · next code =>
          have same : c = Char.ofNat 12 := Char.toNat_inj.mp code
          have bytes := ofText_ascii ['\\', 'f'] (by decide)
          exact .inl ⟨[byte 'f'], bytes, same ▸ letter (by simp)⟩
      split
      · next low =>
          refine .inl ⟨Bytes.ofText ("u" ++ Json.hex4 c.toNat), ?_, fun rest p => ?_⟩
          · rw [show "\\u" = "\\" ++ "u" from rfl, String.append_assoc, Bytes.ofText_append]
            exact congrArg (· ++ _) (ofText_ascii ['\\'] (by decide))
          · have read := reads_unicodeEscape rest p low
            rwa [Char.ofNat_toNat] at read
      · next low =>
          exact .inr ⟨rfl, fun b => isPlain_of_mem (Nat.le_of_not_lt low) quote backslash⟩

-----------------------------------------------------------------------------------------
-- Strings
-----------------------------------------------------------------------------------------

theorem ofText_join (parts : List String)
    : Bytes.ofText (String.join parts) = parts.flatMap Bytes.ofText := by
  induction parts with
  | nil => exact Bytes.ofText_empty
  | cons part parts ih =>
      rw [String.join_cons, Bytes.ofText_append, ih, List.flatMap_cons]

/-- The rest of a string: by induction on the characters that it has still to give. -/
theorem reads_stringRest (fuel : Nat) (rest : Bytes) (p : Place) (seen cs : List Char)
    : Reads (stringRest fuel
          ⟨(cs.map escapedChar).flatMap Bytes.ofText ++ byte '"' :: rest, p⟩
          (seen.flatMap String.utf8EncodeChar).reverse)
        (String.ofList (seen ++ cs)) rest := by
  induction cs generalizing fuel p seen with
  | nil =>
      cases fuel with
      | zero => exact Yields.error _
      | succ fuel =>
          simp only [stringRest, List.map_nil, List.flatMap_nil, List.nil_append, peek?_cons,
            advance_cons, if_pos trivial, List.reverse_reverse, ← Bytes.ofText_ofList,
            Utf8.text?_ofText, List.append_nil]
          exact Yields.ok ⟨rfl, rfl⟩
  | cons c cs ih =>
      have later (fuel : Nat) (p : Place) := ih fuel p (seen ++ [c])
      simp only [List.flatMap_append, List.flatMap_singleton, List.reverse_append,
        List.append_assoc, List.singleton_append] at later
      rw [List.map_cons, List.flatMap_cons, List.append_assoc]
      rcases escapedChar_cases c with ⟨more, bytes, escaped⟩ | ⟨same, plain⟩
      · rw [bytes]
        exact stringRest_escape (escaped _) later
      · rw [same, Bytes.ofText_singleton]
        exact stringRest_plains plain later

/-- The text of a string between its quotes. -/
def escaped (s : String) : String := String.join (s.toList.map escapedChar)

/-- A string is escaped between quotes. -/
theorem ofText_stringText (s : String)
    : Bytes.ofText (stringText s) = byte '"' :: (Bytes.ofText (escaped s) ++ [byte '"']) := by
  have quote : Bytes.ofText "\"" = [byte '"'] := ofText_ascii ['"'] (by decide)
  rw [stringText, Bytes.ofText_append, Bytes.ofText_append, quote]
  rfl

/-- A string is read back from behind its opening quote. -/
theorem reads_string (s : String) (rest : Bytes) (p : Place)
    : Reads (string ⟨Bytes.ofText (escaped s) ++ byte '"' :: rest, p⟩) s rest := by
  have read (fuel : Nat) := reads_stringRest fuel rest p [] s.toList
  simp only [List.nil_append, String.ofList_toList, ← ofText_join] at read
  exact read _

/-- A key as it is written is the text between the quotes. -/
theorem reads_writtenKey (s : String) (rest : Bytes) (p : Place)
    : Reads (writtenKey ⟨Bytes.ofText (escaped s) ++ byte '"' :: rest, p⟩) (escaped s) rest := by
  have length : (Bytes.ofText (escaped s) ++ byte '"' :: rest).length - rest.length - 1
      = (Bytes.ofText (escaped s)).length := by
    rw [List.length_append, List.length_cons]
    omega
  have written : (Bytes.ofText (escaped s) ++ byte '"' :: rest).take
      ((Bytes.ofText (escaped s) ++ byte '"' :: rest).length - rest.length - 1)
      = Bytes.ofText (escaped s) := by
    rw [length, List.take_left]
  refine (reads_string s rest p).bind ?_
  rintro ⟨name, after⟩ ⟨-, left⟩
  refine Yields.ok ⟨?_, left⟩
  simp only [left, written, Utf8.text?_ofText, Option.getD_some]

end Raml.Json.Cursor
