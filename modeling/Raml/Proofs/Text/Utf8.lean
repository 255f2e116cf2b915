import Mathlib.Tactic.Common
import Raml.Text.Utf8

/-! The bytes of a text encode that text and no other.
-/

namespace Raml

-----------------------------------------------------------------------------------------
-- The bytes of a text
-----------------------------------------------------------------------------------------

theorem toList_loop_eq (bs : ByteArray) (i : Nat) (done : List UInt8)
    : ByteArray.toList.loop bs i done = done.reverse ++ bs.data.toList.drop i := by
  fun_induction ByteArray.toList.loop bs i done with
  | case1 i done h ih =>
      have bound : i < bs.data.toList.length := by
        rw [Array.length_toList]
        exact h
      have next : bs.get! i = bs.data.toList[i] := by
        rw [Array.getElem_toList]
        exact getElem!_pos bs.data i h
      rw [ih, List.reverse_cons, List.append_assoc, List.drop_eq_getElem_cons bound, next]
      rfl
  | case2 i done h =>
      have past : bs.data.toList.length ≤ i := by
        rw [Array.length_toList]
        exact Nat.le_of_not_lt h
      rw [List.drop_eq_nil_of_le past, List.append_nil]

namespace Bytes

/-- The bytes of a text are those of its characters, one after the other. -/
theorem ofText_ofList (cs : List Char)
    : ofText (String.ofList cs) = cs.flatMap String.utf8EncodeChar := by
  rw [ofText, ByteArray.toList, toList_loop_eq, String.toUTF8, String.toByteArray_ofList,
    List.utf8Encode]
  simp

/-- The bytes of texts in turn are those of both. -/
theorem ofText_append (s t : String) : ofText (s ++ t) = ofText s ++ ofText t := by
  rw [← String.ofList_toList (s := s), ← String.ofList_toList (s := t), ← String.ofList_append,
    ofText_ofList, ofText_ofList, ofText_ofList, List.flatMap_append]

@[simp] theorem ofText_empty : ofText "" = [] := ofText_ofList []

/-- The bytes of a character are those that encode it. -/
theorem ofText_singleton (c : Char) : ofText c.toString = String.utf8EncodeChar c := by
  rw [show c.toString = String.ofList [c] from rfl, ofText_ofList, List.flatMap_singleton]

/-- Characters with a code below 128 have one byte. -/
theorem utf8EncodeChar_ascii {c : Char} (h : c.toNat < 128)
    : String.utf8EncodeChar c = [UInt8.ofNat c.toNat] := by
  rw [String.utf8EncodeChar]
  exact if_pos (Nat.le_of_lt_succ h)

/-- The other ones have bytes of which none is below 128. -/
theorem le_of_mem_utf8EncodeChar {c : Char} (h : 128 ≤ c.toNat) {b : UInt8}
    (member : b ∈ String.utf8EncodeChar c) : 128 ≤ b.toNat := by
  have valid : c.val.toNat < 1114112 := by
    have := c.valid
    simp only [UInt32.isValidChar, Nat.isValidChar] at this
    omega
  rw [String.utf8EncodeChar] at member
  change 128 ≤ c.val.toNat at h
  generalize c.val.toNat = v at *
  rw [if_neg (by omega)] at member
  split at member
  · simp only [List.mem_cons, List.not_mem_nil, or_false] at member
    rcases member with rfl | rfl <;> rw [UInt8.toNat_ofNat'] <;> omega
  split at member
  · simp only [List.mem_cons, List.not_mem_nil, or_false] at member
    rcases member with rfl | rfl | rfl <;> rw [UInt8.toNat_ofNat'] <;> omega
  · simp only [List.mem_cons, List.not_mem_nil, or_false] at member
    rcases member with rfl | rfl | rfl | rfl <;> rw [UInt8.toNat_ofNat'] <;> omega

end Bytes

-----------------------------------------------------------------------------------------
-- Their characters
-----------------------------------------------------------------------------------------

namespace Utf8

variable {a b c d : Nat} {rest : Bytes}

/-- Six bits with the mark of a tail are a tail. -/
theorem isTail_ofNat (h : b < 64) : isTail (UInt8.ofNat (b + 128)) = true := by
  simp only [isTail, Bool.and_eq_true, decide_eq_true_eq, UInt8.le_iff_toNat_le,
    UInt8.toNat_ofNat', UInt8.toNat_ofNat]
  omega

/-- The payload of a tail are its six bits. -/
theorem payload_ofNat (h : b < 64) : payload (UInt8.ofNat (b + 128)) = b := by
  rw [payload, UInt8.toNat_ofNat']
  omega

/-- The second byte of three tells that the character needs three and is no surrogate. -/
theorem isSecond_three (low : 2048 ≤ (a * 64 + b) * 64 + c) (valid : a * 64 + b < 864 ∨ 896 ≤ a * 64 + b)
    (ha : a < 16) (hb : b < 64) (hc : c < 64)
    : isSecond (UInt8.ofNat (a + 224)) (UInt8.ofNat (b + 128)) = true := by
  simp only [isSecond, isTail, ← UInt8.toNat_inj, UInt8.le_iff_toNat_le, UInt8.toNat_ofNat',
    UInt8.toNat_ofNat]
  repeat' split
  all_goals simp only [Bool.and_eq_true, decide_eq_true_eq]
  all_goals omega

/-- The second byte of four tells that the character needs four and that there is one. -/
theorem isSecond_four (low : 65536 ≤ ((a * 64 + b) * 64 + c) * 64 + d)
    (high : ((a * 64 + b) * 64 + c) * 64 + d < 1114112)
    (hb : b < 64) (hc : c < 64) (hd : d < 64)
    : isSecond (UInt8.ofNat (a + 240)) (UInt8.ofNat (b + 128)) = true := by
  simp only [isSecond, isTail, ← UInt8.toNat_inj, UInt8.le_iff_toNat_le, UInt8.toNat_ofNat',
    UInt8.toNat_ofNat]
  repeat' split
  all_goals simp only [Bool.and_eq_true, decide_eq_true_eq]
  all_goals omega

/-- A byte below 128 is a character. -/
theorem front_one (h : a < 128) : front (UInt8.ofNat a) rest = .char (Char.ofNat a) rest := by
  have first : (UInt8.ofNat a).toNat = a := by
    rw [UInt8.toNat_ofNat']
    omega
  have below : UInt8.ofNat a < 0x80 := by
    rw [UInt8.lt_iff_toNat_lt, first]
    exact h
  simp only [front, if_pos below, first]

/-- Two bytes are a character that has no shorter code. -/
theorem front_two (low : 2 ≤ a) (high : a < 32) (hb : b < 64)
    : front (UInt8.ofNat (a + 192)) (UInt8.ofNat (b + 128) :: rest)
      = .char (Char.ofNat (a * 64 + b)) rest := by
  have first : (UInt8.ofNat (a + 192)).toNat = a + 192 := by
    rw [UInt8.toNat_ofNat']
    omega
  have own : (a + 192) % 32 = a := by omega
  simp only [front, UInt8.lt_iff_toNat_lt, UInt8.le_iff_toNat_le, first, UInt8.toNat_ofNat,
    isTail_ofNat hb, payload_ofNat hb, own]
  rw [if_neg (by omega), if_pos (by simp; omega), if_pos trivial]

/-- Three bytes are a character that has no shorter code and is no surrogate. -/
theorem front_three (low : 2048 ≤ (a * 64 + b) * 64 + c)
    (valid : a * 64 + b < 864 ∨ 896 ≤ a * 64 + b) (ha : a < 16) (hb : b < 64) (hc : c < 64)
    : front (UInt8.ofNat (a + 224)) (UInt8.ofNat (b + 128) :: UInt8.ofNat (c + 128) :: rest)
      = .char (Char.ofNat ((a * 64 + b) * 64 + c)) rest := by
  have first : (UInt8.ofNat (a + 224)).toNat = a + 224 := by
    rw [UInt8.toNat_ofNat']
    omega
  have own : (a + 224) % 16 = a := by omega
  simp only [front, UInt8.lt_iff_toNat_lt, UInt8.le_iff_toNat_le, first, UInt8.toNat_ofNat,
    isSecond_three low valid ha hb hc, isTail_ofNat hc, payload_ofNat hb, payload_ofNat hc, own]
  rw [if_neg (by omega), if_neg (by simp), if_pos (by simp; omega), if_neg (by simp),
    if_pos trivial]

/-- Four bytes are a character that has no shorter code and is not too large. -/
theorem front_four (low : 65536 ≤ ((a * 64 + b) * 64 + c) * 64 + d)
    (high : ((a * 64 + b) * 64 + c) * 64 + d < 1114112)
    (hb : b < 64) (hc : c < 64) (hd : d < 64)
    : front (UInt8.ofNat (a + 240))
        (UInt8.ofNat (b + 128) :: UInt8.ofNat (c + 128) :: UInt8.ofNat (d + 128) :: rest)
      = .char (Char.ofNat (((a * 64 + b) * 64 + c) * 64 + d)) rest := by
  have first : (UInt8.ofNat (a + 240)).toNat = a + 240 := by
    rw [UInt8.toNat_ofNat']
    omega
  have own : (a + 240) % 8 = a := by omega
  simp only [front, UInt8.lt_iff_toNat_lt, UInt8.le_iff_toNat_le, first, UInt8.toNat_ofNat,
    isSecond_four low high hb hc hd, isTail_ofNat hc, isTail_ofNat hd, payload_ofNat hb,
    payload_ofNat hc, payload_ofNat hd, own]
  rw [if_neg (by omega), if_neg (by simp), if_neg (by simp),
    if_pos (by simp; omega), if_neg (by simp), if_neg (by simp), if_pos trivial]

/-- At the front of the bytes of a character stands that character. -/
theorem front_utf8EncodeChar (c : Char) (rest : Bytes)
    : ∃ lead more, String.utf8EncodeChar c = lead :: more
        ∧ front lead (more ++ rest) = .char c rest := by
  have whole : Char.ofNat c.val.toNat = c := Char.ofNat_toNat c
  have valid := c.valid
  rw [String.utf8EncodeChar]
  simp only [UInt32.isValidChar, Nat.isValidChar] at valid ⊢
  generalize c.val.toNat = v at *
  split
  · exact ⟨_, _, rfl, by rw [List.nil_append, front_one (by omega), whole]⟩
  split
  · refine ⟨_, _, rfl, (front_two (by omega) (by omega) (by omega)).trans ?_⟩
    rw [← whole]
    congr 2
    omega
  split
  · refine ⟨_, _, rfl, (front_three (by omega) (by omega) (by omega) (by omega) (by omega)).trans ?_⟩
    rw [← whole]
    congr 2
    omega
  · refine ⟨_, _, rfl, (front_four (by omega) (by omega) (by omega) (by omega) (by omega)).trans ?_⟩
    rw [← whole]
    congr 2
    omega

/-- The character in front comes first. -/
theorem chars?_cons (lead : UInt8) (rest : Bytes)
    : chars? (lead :: rest) = match front lead rest with
        | .char c after => (chars? after).map (c :: ·)
        | .broken _ => none := by
  rw [chars?]
  split <;> rename_i same <;> simp only [same]

/-- Encoded characters are read back, by induction on them. -/
theorem chars?_flatMap (cs : List Char)
    : chars? (cs.flatMap String.utf8EncodeChar) = some cs := by
  induction cs with
  | nil => rw [List.flatMap_nil, chars?]
  | cons c cs ih =>
      obtain ⟨lead, more, bytes, first⟩ :=
        front_utf8EncodeChar c (cs.flatMap String.utf8EncodeChar)
      simp only [List.flatMap_cons, bytes, List.cons_append, chars?_cons, first, ih,
        Option.map_some]

/-- The bytes of a text encode that text. -/
theorem text?_ofText (s : String) : text? (Bytes.ofText s) = some s := by
  rw [← String.ofList_toList (s := s), Bytes.ofText_ofList, text?, chars?_flatMap,
    Option.map_some]

end Utf8

end Raml
