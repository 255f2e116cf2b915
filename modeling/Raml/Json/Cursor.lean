import Raml.Word64
import Raml.Text.Utf8
import Raml.Decimal.Reading
import Raml.Json

/-! Reading the parts of JSON text: blanks, words, strings and numbers, each with the place at which
it goes wrong.
-/

namespace Raml.Json

/-- A line, counted from one, and the number of bytes of it that lie behind. -/
structure Place where
  line : Nat := 1
  column : Nat := 0
  deriving DecidableEq, Inhabited

/-- What is wrong with JSON text. -/
inductive Fault where
  | endInValue
  | endInList
  | endInObject
  | endInString
  | expectedColon
  | expectedListEnd
  | expectedObjectEnd
  | expectedWord
  | expectedValue
  | invalidEscape
  | invalidNumber
  | numberOutOfRange
  | invalidText
  | controlCharacter
  | keyNotString
  | loneSurrogate
  | endInEscape
  | trailingComma
  | trailingCharacters
  | tooDeep
  deriving DecidableEq, Inhabited

/-- The wording of a fault. -/
def Fault.message : Fault → String
  | .endInValue => "EOF while parsing a value"
  | .endInList => "EOF while parsing a list"
  | .endInObject => "EOF while parsing an object"
  | .endInString => "EOF while parsing a string"
  | .expectedColon => "expected `:`"
  | .expectedListEnd => "expected `,` or `]`"
  | .expectedObjectEnd => "expected `,` or `\x7d`"
  | .expectedWord => "expected ident"
  | .expectedValue => "expected value"
  | .invalidEscape => "invalid escape"
  | .invalidNumber => "invalid number"
  | .numberOutOfRange => "number out of range"
  | .invalidText => "invalid unicode code point"
  | .controlCharacter => "control character (\\u0000-\\u001F) found while parsing a string"
  | .keyNotString => "key must be a string"
  | .loneSurrogate => "lone leading surrogate in hex escape"
  | .endInEscape => "unexpected end of hex escape"
  | .trailingComma => "trailing comma"
  | .trailingCharacters => "trailing characters"
  | .tooDeep => "recursion limit exceeded"

/-- A fault and its place. -/
structure Failure where
  fault : Fault
  place : Place
  deriving DecidableEq, Inhabited

/-- The bytes still to be read, and the place reached. -/
structure Cursor where
  rest : Bytes
  place : Place := {}

namespace Cursor

/-- The place behind one more byte. -/
def step (p : Place) (b : UInt8) : Place :=
  if b = 0x0A then ⟨p.line + 1, 0⟩ else ⟨p.line, p.column + 1⟩

/-- The next byte. -/
def peek? (c : Cursor) : Option UInt8 := c.rest.head?

/-- The cursor behind the next byte. -/
def advance (c : Cursor) : Cursor :=
  match c.rest with
  | [] => c
  | b :: r => ⟨r, step c.place b⟩

/-- The cursor behind the next `n` bytes. -/
def skip : Nat → Cursor → Cursor
  | 0, c => c
  | n + 1, c => skip n c.advance

/-- A fault of the bytes read so far. -/
def behind (c : Cursor) (fault : Fault) : Failure := ⟨fault, c.place⟩

/-- A fault of the byte that comes next. -/
def ahead (c : Cursor) (fault : Fault) : Failure := ⟨fault, c.advance.place⟩

/-- Bytes between tokens. -/
def isBlank (b : UInt8) : Bool := b = 0x20 || b = 0x0A || b = 0x09 || b = 0x0D

/-- Moves past blanks. -/
def skipBlanksAt : Bytes → Place → Cursor
  | [], p => ⟨[], p⟩
  | b :: r, p => if isBlank b then skipBlanksAt r (step p b) else ⟨b :: r, p⟩

/-- Moves past blanks. -/
def skipBlanks (c : Cursor) : Cursor := skipBlanksAt c.rest c.place

/-- The bytes of an ASCII character. -/
def byte (ch : Char) : UInt8 := ch.toNat.toUInt8

/-- Reads the letters of a word whose first one has been seen. -/
def word : List Char → Cursor → Except Failure Cursor
  | [], c => .ok c
  | ch :: chs, c =>
      match c.peek? with
      | none => .error (c.behind .endInValue)
      | some b =>
          if b = byte ch then word chs c.advance
          else .error (c.advance.behind .expectedWord)

/-- The value of a hexadecimal digit. -/
def hexValue? (b : UInt8) : Option Nat :=
  if byte '0' ≤ b && b ≤ byte '9' then some (b.toNat - 48)
  else if byte 'a' ≤ b && b ≤ byte 'f' then some (b.toNat - 87)
  else if byte 'A' ≤ b && b ≤ byte 'F' then some (b.toNat - 55)
  else none

/-- Four hexadecimal digits. -/
def hex4 (c : Cursor) : Except Failure (Nat × Cursor) :=
  match c.rest with
  | a :: b :: d :: e :: _ =>
      let c := c.skip 4
      match hexValue? a, hexValue? b, hexValue? d, hexValue? e with
      | some a, some b, some d, some e => .ok (((a * 16 + b) * 16 + d) * 16 + e, c)
      | _, _, _, _ => .error (c.behind .invalidEscape)
  | rest => .error ((c.skip rest.length).behind .endInString)

/-- The next byte must be `ch`, as the second half of a pair of escapes. -/
def pairMark (ch : Char) (c : Cursor) : Except Failure Cursor :=
  match c.peek? with
  | none => .error (c.behind .endInString)
  | some b =>
      if b = byte ch then .ok c.advance else .error (c.advance.behind .endInEscape)

/-- The character of an escape by code unit; two surrogates make one character. -/
def unicodeEscape (c : Cursor) : Except Failure (Char × Cursor) := do
  let (n, c) ← hex4 c
  if 0xDC00 ≤ n ∧ n ≤ 0xDFFF then .error (c.behind .loneSurrogate)
  else if 0xD800 ≤ n ∧ n ≤ 0xDBFF then
    let c ← pairMark '\\' c
    let c ← pairMark 'u' c
    let (m, c) ← hex4 c
    if 0xDC00 ≤ m ∧ m ≤ 0xDFFF then
      .ok (Char.ofNat (0x10000 + (n - 0xD800) * 1024 + (m - 0xDC00)), c)
    else .error (c.behind .loneSurrogate)
  else .ok (Char.ofNat n, c)

/-- The character of an escape, behind its backslash. -/
def escape (c : Cursor) : Except Failure (Char × Cursor) :=
  match c.peek? with
  | none => .error (c.behind .endInString)
  | some b =>
      let c := c.advance
      if b = byte '"' then .ok ('"', c)
      else if b = byte '\\' then .ok ('\\', c)
      else if b = byte '/' then .ok ('/', c)
      else if b = byte 'b' then .ok (Char.ofNat 8, c)
      else if b = byte 'f' then .ok (Char.ofNat 12, c)
      else if b = byte 'n' then .ok ('\n', c)
      else if b = byte 'r' then .ok ('\r', c)
      else if b = byte 't' then .ok ('\t', c)
      else if b = byte 'u' then unicodeEscape c
      else .error (c.behind .invalidEscape)

/-- The rest of a string whose bytes so far, last one first, are `done`. -/
def stringRest : Nat → Cursor → List UInt8 → Except Failure (String × Cursor)
  | 0, c, _ => .error (c.behind .endInString)
  | fuel + 1, c, done =>
      match c.peek? with
      | none => .error (c.behind .endInString)
      | some b =>
          if b = byte '"' then
            match Utf8.text? done.reverse with
            | some s => .ok (s, c.advance)
            | none => .error (c.behind .invalidText)
          else if b = byte '\\' then do
            let (ch, c) ← escape c.advance
            stringRest fuel c ((Bytes.ofText ch.toString).reverse ++ done)
          else if b < 0x20 then .error (c.advance.behind .controlCharacter)
          else stringRest fuel c.advance (b :: done)

/-- A string, behind its opening quote. -/
def string (c : Cursor) : Except Failure (String × Cursor) := stringRest (c.rest.length + 1) c []

/-- The digits that come next. -/
def digits (c : Cursor) : List Char × Cursor :=
  let ds := c.rest.takeWhile fun b => byte '0' ≤ b && b ≤ byte '9'
  (ds.map fun b => Char.ofNat b.toNat, c.skip ds.length)

/-- The largest whole number that is read without rounding. -/
def largest : Nat := UInt64.size - 1

/-- The largest exponent. -/
def largestExponent : Nat := Int32.maxValue.toNatClampNeg

/-- Takes digits into a number as long as that is within a bound: the number, and how many digits
it took. -/
def takeDigits (bound : Nat) : Nat → List Char → Nat × Nat
  | n, [] => (n, 0)
  | n, d :: ds =>
      let m := 10 * n + Decimal.digitValue d
      if bound < m then (n, 0)
      else
        let (k, taken) := takeDigits bound m ds
        (k, taken + 1)

/-- A number that is not whole, or too large to be read as one: as many leading digits as fit,
scaled by what the others and the exponent make of it. -/
def float (negative : Bool) (whole fraction : List Char) (exponent : Int) : Option Float :=
  let (n, taken) := takeDigits largest 0 whole
  let (significand, places) := takeDigits largest n fraction
  let power := (whole.length - taken : Nat) - (places : Int) + exponent
  (Decimal.scaled (Float.ofNat significand) power).map fun x => if negative then -x else x

/-- The digits of an exponent and their sign, behind its mark. Unless it scales zero, an exponent
that is too large is not read to its end. -/
def exponent (scalesZero : Bool) (c : Cursor) : Except Failure (Int × Cursor) := do
  let (negative, c) :=
    match c.peek? with
    | some b =>
        if b = byte '-' then (true, c.advance)
        else if b = byte '+' then (false, c.advance)
        else (false, c)
    | none => (false, c)
  let (ds, after) := c.digits
  if ds.isEmpty then
    match c.peek? with
    | none => .error (c.behind .endInValue)
    | some _ => .error (c.advance.behind .invalidNumber)
  else
    let (_, taken) := takeDigits largestExponent 0 ds
    if taken < ds.length && !negative && !scalesZero then
      .error ((c.skip (taken + 1)).behind .numberOutOfRange)
    else
      let n : Int := Decimal.digitsValue ds
      .ok (if negative then -n else n, after)

/-- The digits before the point; a leading zero stands alone. -/
def wholeDigits (c : Cursor) : Except Failure (List Char × Cursor) :=
  let (ds, after) := c.digits
  match ds with
  | [] =>
      match c.peek? with
      | none => .error (c.behind .endInValue)
      | some _ => .error (c.advance.behind .invalidNumber)
  | '0' :: _ :: _ => .error (c.advance.ahead .invalidNumber)
  | ds => .ok (ds, after)

/-- The digits after the point, if there is one. -/
def fractionDigits (c : Cursor) : Except Failure (Option (List Char) × Cursor) :=
  match c.peek? with
  | some b =>
      if b = byte '.' then
        let (ds, after) := c.advance.digits
        if ds.isEmpty then
          match after.peek? with
          | none => .error (after.behind .endInValue)
          | some _ => .error (after.ahead .invalidNumber)
        else .ok (some ds, after)
      else .ok (none, c)
  | none => .ok (none, c)

/-- The exponent, if there is one. -/
def exponentIfAny (scalesZero : Bool) (c : Cursor) : Except Failure (Option Int × Cursor) :=
  match c.peek? with
  | some b =>
      if b = byte 'e' || b = byte 'E' then do
        let (e, c) ← c.advance.exponent scalesZero
        .ok (some e, c)
      else .ok (none, c)
  | none => .ok (none, c)

/-- A whole number within the range of words of 64 bits, with or without a sign. -/
def wholeNumber? (negative : Bool) (ds : List Char) : Option Int :=
  let n := Decimal.digitsValue ds
  if negative then if 0 < n && (int64? (-n)).isSome then some (-n) else none
  else if (uint64? n).isSome then some n else none

/-- A number, behind its sign. -/
def number (negative : Bool) (c : Cursor) : Except Failure (Json × Cursor) := do
  let (whole, c) ← wholeDigits c
  let (fraction, c) ← fractionDigits c
  let isZero := (whole ++ fraction.getD []).all (· == '0')
  let (exponent, c) ← exponentIfAny isZero c
  match fraction, exponent, wholeNumber? negative whole with
  | none, none, some i => .ok (.int i, c)
  | _, _, _ =>
      match float negative whole (fraction.getD []) (exponent.getD 0) with
      | some x => .ok (.float x, c)
      | none => .error (c.behind .numberOutOfRange)

end Cursor

end Raml.Json
