import Raml.Text.Utf8

/-! Bytes as text over sixty-four characters, padded to groups of four. -/

namespace Raml.Base64

/-- The character of a six-bit value. -/
def symbol (n : Nat) : Char :=
  if n < 26 then Char.ofNat (65 + n)
  else if n < 52 then Char.ofNat (71 + n)
  else if n < 62 then Char.ofNat (n - 4)
  else if n = 62 then '+'
  else '/'

/-- The six-bit value of a character. -/
def value? (c : Char) : Option Nat :=
  let n := c.toNat
  if 65 ≤ n ∧ n ≤ 90 then some (n - 65)
  else if 97 ≤ n ∧ n ≤ 122 then some (n - 71)
  else if 48 ≤ n ∧ n ≤ 57 then some (n + 4)
  else if c = '+' then some 62
  else if c = '/' then some 63
  else none

/-- Three bytes become four characters; one or two at the end are padded. -/
def encodeChars : Bytes → List Char
  | [] => []
  | [a] => [symbol (a.toNat / 4), symbol (a.toNat % 4 * 16), '=', '=']
  | [a, b] =>
      [symbol (a.toNat / 4), symbol (a.toNat % 4 * 16 + b.toNat / 16), symbol (b.toNat % 16 * 4), '=']
  | a :: b :: c :: rest =>
      symbol (a.toNat / 4) :: symbol (a.toNat % 4 * 16 + b.toNat / 16)
        :: symbol (b.toNat % 16 * 4 + c.toNat / 64) :: symbol (c.toNat % 64) :: encodeChars rest

/-- The text of a byte sequence. -/
def encode (bytes : Bytes) : String := String.ofList (encodeChars bytes)

/-- The byte of two six-bit values, of which the first gives the upper `8 - shift` bits. -/
def joined (a b upper lower : Nat) : UInt8 := (a * upper + b / lower).toUInt8

/-- Four characters become three bytes. Padding stands only at the end, and the bits that it
leaves over are zero. -/
def decodeChars : List Char → Option Bytes
  | [] => some []
  | [p, q, '=', '='] => do
      let a ← value? p
      let b ← value? q
      if b % 16 = 0 then some [joined a b 4 16] else none
  | [p, q, r, '='] => do
      let a ← value? p
      let b ← value? q
      let c ← value? r
      if c % 4 = 0 then some [joined a b 4 16, joined (b % 16) c 16 4] else none
  | p :: q :: r :: s :: rest => do
      let a ← value? p
      let b ← value? q
      let c ← value? r
      let d ← value? s
      let bytes ← decodeChars rest
      some (joined a b 4 16 :: joined (b % 16) c 16 4 :: joined (c % 4) d 64 1 :: bytes)
  | _ => none

/-- The byte sequence of a text. -/
def decode? (s : String) : Option Bytes := decodeChars s.toList

end Raml.Base64
