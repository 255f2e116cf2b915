import Mathlib.Tactic.Common
import Raml.Base64

/-! Base64 text and the bytes it stands for: each is found from the other.
-/

namespace Raml.Base64

variable {a b c d n : Nat} {ch : Char} {rest : List Char}

/-- A symbol stands for its value. -/
theorem value?_symbol : ∀ n < 64, value? (symbol n) = some n := by decide

/-- No symbol is used for padding. -/
theorem symbol_ne_pad : ∀ n < 64, symbol n ≠ '=' := by decide

/-- Each symbol has one value. -/
theorem value?_eq_some (h : value? ch = some n) : n < 64 ∧ symbol n = ch := by
  have same {m : Nat} (code : ch.toNat = m) : Char.ofNat m = ch := by rw [← code, Char.ofNat_toNat]
  unfold value? at h
  simp only at h
  split at h
  · next range =>
      cases h
      refine ⟨by omega, ?_⟩
      rw [symbol, if_pos (by omega)]
      exact same (by omega)
  split at h
  · next range =>
      cases h
      refine ⟨by omega, ?_⟩
      rw [symbol, if_neg (by omega), if_pos (by omega)]
      exact same (by omega)
  split at h
  · next range =>
      cases h
      refine ⟨by omega, ?_⟩
      rw [symbol, if_neg (by omega), if_neg (by omega), if_pos (by omega)]
      exact same (by omega)
  split at h
  · next plus =>
      cases h
      exact ⟨by decide, plus.symm⟩
  split at h
  · next slash =>
      cases h
      exact ⟨by decide, slash.symm⟩
  · cases h

/-- Two parts of a byte are joined without being cut off. -/
theorem toNat_joined (h : a * upper + b / lower < 256)
    : (joined a b upper lower).toNat = a * upper + b / lower := by
  rw [joined]
  exact Nat.mod_eq_of_lt h

/-- The parts of a byte make up the byte. -/
theorem joined_eq {x : UInt8} (h : a * upper + b / lower = x.toNat) : joined a b upper lower = x := by
  rw [joined, h]
  exact UInt8.ofNat_toNat

/-- Two symbols and padding are a byte, if no bit is left over. -/
theorem decodeChars_two {p q : Char}
    : decodeChars [p, q, '=', '=']
      = (value? p).bind fun a => (value? q).bind fun b =>
          if b % 16 = 0 then some [joined a b 4 16] else none := rfl

/-- Three symbols and padding are two bytes, if no bit is left over. -/
theorem decodeChars_three {p q r : Char} (h : r ≠ '=')
    : decodeChars [p, q, r, '=']
      = (value? p).bind fun a => (value? q).bind fun b => (value? r).bind fun c =>
          if c % 4 = 0 then some [joined a b 4 16, joined (b % 16) c 16 4] else none := by
  rw [decodeChars]
  · rfl
  · exact fun same => h same

/-- Four symbols are three bytes. -/
theorem decodeChars_four {p q r s : Char} (h : s ≠ '=')
    : decodeChars (p :: q :: r :: s :: rest)
      = (value? p).bind fun a => (value? q).bind fun b => (value? r).bind fun c =>
          (value? s).bind fun d => (decodeChars rest).bind fun bytes =>
            some (joined a b 4 16 :: joined (b % 16) c 16 4 :: joined (c % 4) d 64 1 :: bytes) := by
  rw [decodeChars]
  · rfl
  · exact fun _ same _ => h same
  · exact fun same _ => h same

/-- Bytes are found from their text: by induction on groups of three. -/
theorem decodeChars_encodeChars (bytes : Bytes) : decodeChars (encodeChars bytes) = some bytes := by
  fun_induction encodeChars bytes with
  | case1 => rfl
  | case2 a =>
      have ha := a.toNat_lt
      have first := value?_symbol (a.toNat / 4) (by omega)
      have second := value?_symbol (a.toNat % 4 * 16) (by omega)
      simp only [decodeChars_two, first, second, Option.bind_some]
      rw [if_pos (by omega), joined_eq (x := a) (by omega)]
  | case3 a b =>
      have ha := a.toNat_lt
      have hb := b.toNat_lt
      have first := value?_symbol (a.toNat / 4) (by omega)
      have second := value?_symbol (a.toNat % 4 * 16 + b.toNat / 16) (by omega)
      have third := value?_symbol (b.toNat % 16 * 4) (by omega)
      rw [decodeChars_three (symbol_ne_pad _ (by omega))]
      simp only [first, second, third, Option.bind_some]
      rw [if_pos (by omega), joined_eq (x := a) (by omega), joined_eq (x := b) (by omega)]
  | case4 a b c rest ih =>
      have ha := a.toNat_lt
      have hb := b.toNat_lt
      have hc := c.toNat_lt
      have first := value?_symbol (a.toNat / 4) (by omega)
      have second := value?_symbol (a.toNat % 4 * 16 + b.toNat / 16) (by omega)
      have third := value?_symbol (b.toNat % 16 * 4 + c.toNat / 64) (by omega)
      have fourth := value?_symbol (c.toNat % 64) (by omega)
      rw [decodeChars_four (symbol_ne_pad _ (by omega))]
      simp only [first, second, third, fourth, ih, Option.bind_some]
      rw [joined_eq (x := a) (by omega), joined_eq (x := b) (by omega), joined_eq (x := c) (by omega)]

/-- One byte is written as the two symbols that it is joined from. -/
theorem encodeChars_joined (ha : a < 64) (hb : b < 64) (spare : b % 16 = 0)
    : encodeChars [joined a b 4 16] = [symbol a, symbol b, '=', '='] := by
  have byte₁ : (joined a b 4 16).toNat = a * 4 + b / 16 := toNat_joined (by omega)
  have six₁ : (a * 4 + b / 16) / 4 = a := by omega
  have six₂ : (a * 4 + b / 16) % 4 * 16 = b := by omega
  rw [encodeChars, byte₁, six₁, six₂]

/-- Two bytes are written with the symbols that they were read from. -/
theorem encodeChars_joined_two (ha : a < 64) (hb : b < 64) (hc : c < 64) (spare : c % 4 = 0)
    : encodeChars [joined a b 4 16, joined (b % 16) c 16 4] = [symbol a, symbol b, symbol c, '='] := by
  have byte₁ : (joined a b 4 16).toNat = a * 4 + b / 16 := toNat_joined (by omega)
  have byte₂ : (joined (b % 16) c 16 4).toNat = b % 16 * 16 + c / 4 := toNat_joined (by omega)
  have six₁ : (a * 4 + b / 16) / 4 = a := by omega
  have six₂ : (a * 4 + b / 16) % 4 * 16 + (b % 16 * 16 + c / 4) / 16 = b := by omega
  have six₃ : (b % 16 * 16 + c / 4) % 16 * 4 = c := by omega
  rw [encodeChars, byte₁, byte₂, six₁, six₂, six₃]

/-- Three bytes are written with the symbols that they were read from. -/
theorem encodeChars_joined_three (ha : a < 64) (hb : b < 64) (hc : c < 64) (hd : d < 64)
    (bytes : Bytes)
    : encodeChars (joined a b 4 16 :: joined (b % 16) c 16 4 :: joined (c % 4) d 64 1 :: bytes)
      = symbol a :: symbol b :: symbol c :: symbol d :: encodeChars bytes := by
  have byte₁ : (joined a b 4 16).toNat = a * 4 + b / 16 := toNat_joined (by omega)
  have byte₂ : (joined (b % 16) c 16 4).toNat = b % 16 * 16 + c / 4 := toNat_joined (by omega)
  have byte₃ : (joined (c % 4) d 64 1).toNat = c % 4 * 64 + d / 1 := toNat_joined (by omega)
  have six₁ : (a * 4 + b / 16) / 4 = a := by omega
  have six₂ : (a * 4 + b / 16) % 4 * 16 + (b % 16 * 16 + c / 4) / 16 = b := by omega
  have six₃ : (b % 16 * 16 + c / 4) % 16 * 4 + (c % 4 * 64 + d / 1) / 64 = c := by omega
  have six₄ : (c % 4 * 64 + d / 1) % 64 = d := by omega
  rw [encodeChars, byte₁, byte₂, byte₃, six₁, six₂, six₃, six₄]

/-- A text that stands for bytes is the text of these bytes: by induction on groups of four. -/
theorem encodeChars_of_decodeChars {cs : List Char} {bytes : Bytes}
    (h : decodeChars cs = some bytes) : encodeChars bytes = cs := by
  fun_induction decodeChars cs generalizing bytes with
  | case1 =>
      cases h
      rfl
  | case2 p q =>
      obtain ⟨a, first, h⟩ := Option.bind_eq_some_iff.mp h
      obtain ⟨b, second, h⟩ := Option.bind_eq_some_iff.mp h
      obtain ⟨ha, p⟩ := value?_eq_some first
      obtain ⟨hb, q⟩ := value?_eq_some second
      split at h
      · next spare =>
          cases h
          rw [encodeChars_joined ha hb spare, p, q]
      · cases h
  | case3 p q r =>
      obtain ⟨a, first, h⟩ := Option.bind_eq_some_iff.mp h
      obtain ⟨b, second, h⟩ := Option.bind_eq_some_iff.mp h
      obtain ⟨c, third, h⟩ := Option.bind_eq_some_iff.mp h
      obtain ⟨ha, p⟩ := value?_eq_some first
      obtain ⟨hb, q⟩ := value?_eq_some second
      obtain ⟨hc, r⟩ := value?_eq_some third
      split at h
      · next spare =>
          cases h
          rw [encodeChars_joined_two ha hb hc spare, p, q, r]
      · cases h
  | case4 p q r s rest _ _ ih =>
      obtain ⟨a, first, h⟩ := Option.bind_eq_some_iff.mp h
      obtain ⟨b, second, h⟩ := Option.bind_eq_some_iff.mp h
      obtain ⟨c, third, h⟩ := Option.bind_eq_some_iff.mp h
      obtain ⟨d, fourth, h⟩ := Option.bind_eq_some_iff.mp h
      obtain ⟨bytes, others, h⟩ := Option.bind_eq_some_iff.mp h
      obtain ⟨ha, p⟩ := value?_eq_some first
      obtain ⟨hb, q⟩ := value?_eq_some second
      obtain ⟨hc, r⟩ := value?_eq_some third
      obtain ⟨hd, s⟩ := value?_eq_some fourth
      cases h
      rw [encodeChars_joined_three ha hb hc hd, p, q, r, s, ih others]
  | case5 => cases h

/-- The text of bytes stands for these bytes. -/
theorem decode?_encode (bytes : Bytes) : decode? (encode bytes) = some bytes := by
  rw [decode?, encode, String.toList_ofList, decodeChars_encodeChars]

/-- A text that stands for bytes is their text. -/
theorem encode_of_decode? {text : String} {bytes : Bytes} (h : decode? text = some bytes)
    : encode bytes = text := by
  rw [encode, encodeChars_of_decodeChars h, String.ofList_toList]

end Raml.Base64
