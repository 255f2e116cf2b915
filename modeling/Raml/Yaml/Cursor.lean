import Raml.Yaml.Fault
import Raml.Text.Utf8

/-! The characters of a YAML text, and a cursor that moves over them. -/

namespace Raml.Yaml

/-- Characters that may stand in a text. -/
def isAllowed (n : Nat) : Bool :=
  n == 0x09 || n == 0x0A || n == 0x0D || (0x20 ≤ n && n ≤ 0x7E) || n == 0x85
    || (0xA0 ≤ n && n ≤ 0xD7FF) || (0xE000 ≤ n && n ≤ 0xFFFD) || (0x10000 ≤ n && n ≤ 0x10FFFF)

/-- How many bytes a character takes that starts with this one. -/
def octetWidth (lead : UInt8) : Nat :=
  if lead < 0x80 then 1
  else if lead &&& 0xE0 = 0xC0 then 2
  else if lead &&& 0xF0 = 0xE0 then 3
  else if lead &&& 0xF8 = 0xF0 then 4
  else 0

/-- The value of the first byte of a character. -/
def leadValue (lead : UInt8) (width : Nat) : Nat :=
  match width with
  | 1 => lead.toNat
  | 2 => lead.toNat % 32
  | 3 => lead.toNat % 16
  | _ => lead.toNat % 8

/-- Takes continuing bytes into a code point; `offset` is the place of the first of them. -/
def trailValue (value offset : Nat) : Bytes → Except Fault Nat
  | [] => .ok value
  | b :: r =>
      if b &&& 0xC0 = 0x80 then trailValue (value * 64 + b.toNat % 64) (offset + 1) r
      else .error (.unreadable .invalidTrailingOctet offset)

/-- The fewest bytes that a code point takes. -/
def leastWidth (n : Nat) : Nat :=
  if n < 0x80 then 1 else if n < 0x800 then 2 else if n < 0x10000 then 3 else 4

/-- The characters of a stretch of bytes of which the first is at `offset`, and the bytes at its end
that begin one more character. -/
def charsFrom (offset : Nat) : Nat → Bytes → Except Fault (List Char × Bytes)
  | 0, bytes => .ok ([], bytes)
  | _, [] => .ok ([], [])
  | fuel + 1, b :: r => do
      let width := octetWidth b
      if width = 0 then throw (.unreadable .invalidLeadingOctet offset)
      if r.length + 1 < width then return ([], b :: r)
      let n ← trailValue (leadValue b width) (offset + 1) (r.take (width - 1))
      if leastWidth n < width then throw (.unreadable .invalidOctetLength offset)
      if (0xD800 ≤ n && n ≤ 0xDFFF) || 0x10FFFF < n then
        throw (.unreadable .invalidCharacter offset)
      if !isAllowed n then throw (.unreadable .controlCharacter offset)
      let (cs, left) ← charsFrom (offset + width) fuel (r.drop (width - 1))
      return (Char.ofNat n :: cs, left)

/-- How many bytes are taken at a time. -/
def stretch : Nat := 16384

/-- The characters of a text whose first byte is at `offset`, stretch by stretch, and the fault of
the stretch behind them, if one is faulty. -/
def charsOf (offset : Nat) : Nat → Bytes → List Char × Option Fault
  | 0, _ => ([], none)
  | fuel + 1, bytes =>
      let front := bytes.take stretch
      match charsFrom offset front.length front with
      | .error fault => ([], some fault)
      | .ok (cs, left) =>
          let read := front.length - left.length
          if (bytes.drop stretch).isEmpty then
            (cs, if left.isEmpty then none else some (.unreadable .incompleteOctets (offset + read)))
          else
            let (more, fault) := charsOf (offset + read) fuel (bytes.drop read)
            (cs ++ more, fault)

/-- The characters of a text, and the fault behind them, if there is one. -/
def chars (bytes : Bytes) : List Char × Option Fault := charsOf 0 (bytes.length + 1) bytes

/-- What stands for the end of the text. -/
def endChar : Char := Char.ofNat 0

def isEnd (c : Char) : Bool := c == endChar

def isBlank (c : Char) : Bool := c == ' ' || c == '\t'

def isBreak (c : Char) : Bool :=
  c == '\r' || c == '\n' || c.toNat == 0x85 || c.toNat == 0x2028 || c.toNat == 0x2029

def isBreakOrEnd (c : Char) : Bool := isBreak c || isEnd c

def isBlankOrEnd (c : Char) : Bool := isBlank c || isBreakOrEnd c

/-- Characters of names. -/
def isAlpha (c : Char) : Bool := c.isAlphanum || c == '_' || c == '-'

/-- The value of a hexadecimal digit. -/
def hexValue? (c : Char) : Option Nat :=
  let n := c.toNat
  if 48 ≤ n ∧ n ≤ 57 then some (n - 48)
  else if 65 ≤ n ∧ n ≤ 70 then some (n - 55)
  else if 97 ≤ n ∧ n ≤ 102 then some (n - 87)
  else none

/-- The characters still to be read, and the place reached. -/
structure Cursor where
  rest : List Char
  mark : Mark := {}
  /-- The fault behind the characters, where the text goes on but cannot be read. -/
  behind : Option Fault := none

/-- The place behind one more character of the line. -/
def Mark.next (m : Mark) (c : Char) : Mark := ⟨m.index + c.utf8Size, m.line, m.column + 1⟩

/-- The start of the next line, behind a break of `n` bytes. -/
def Mark.newLine (m : Mark) (n : Nat) : Mark := ⟨m.index + n, m.line + 1, 0⟩

namespace Cursor

/-- The character `k` places on. -/
def peek (c : Cursor) (k : Nat := 0) : Char := c.rest.getD k endChar

def column (c : Cursor) : Nat := c.mark.column

/-- Makes sure of the next `n` characters, of which the text may have fewer, but none that cannot be
read. -/
def ensure (c : Cursor) (n : Nat) : Except Fault Unit :=
  match c.behind with
  | some fault => if (c.rest.take n).length < n then .error fault else .ok ()
  | none => .ok ()

/-- Moves past one character of the line. -/
def skip (c : Cursor) : Cursor :=
  match c.rest with
  | [] => c
  | ch :: r => { c with rest := r, mark := c.mark.next ch }

/-- Moves past `n` characters of the line. -/
def skipMany : Nat → Cursor → Cursor
  | 0, c => c
  | n + 1, c => skipMany n c.skip

/-- The characters of the line that satisfy `p`, and the cursor behind them. -/
def span (p : Char → Bool) (c : Cursor) : List Char × Cursor :=
  let cs := c.rest.takeWhile p
  (cs, { c with rest := c.rest.drop cs.length, mark := cs.foldl Mark.next c.mark })

/-- Moves past the characters of the line that satisfy `p`. -/
def skipWhile (p : Char → Bool) (c : Cursor) : Cursor := (c.span p).2

/-- Moves past a line break, if there is one, and says how it reads: most breaks as a newline. -/
def lineBreak (c : Cursor) : List Char × Cursor :=
  match c.rest with
  | '\r' :: '\n' :: r => (['\n'], { c with rest := r, mark := c.mark.newLine 2 })
  | ch :: r =>
      if isBreak ch then
        let text := if ch.toNat = 0x2028 ∨ ch.toNat = 0x2029 then ch else '\n'
        ([text], { c with rest := r, mark := c.mark.newLine ch.utf8Size })
      else ([], c)
  | [] => ([], c)

/-- Moves past a line break, if there is one. -/
def skipLine (c : Cursor) : Cursor := c.lineBreak.2

/-- Whether three characters that mark off documents come next, at the start of a line. -/
def atDocumentMark (c : Cursor) (ch : Char) : Bool :=
  c.column == 0 && c.peek == ch && c.peek 1 == ch && c.peek 2 == ch && isBlankOrEnd (c.peek 3)

/-- Whether a document starts or ends here. -/
def atDocumentBoundary (c : Cursor) : Bool := c.atDocumentMark '-' || c.atDocumentMark '.'

/-- A problem at the cursor. -/
def fail {α : Type} (c : Cursor) (activity : Activity) (start : Mark) (problem : Problem)
    : Except Fault α :=
  .error (.malformed problem c.mark (some (activity, start)))

end Cursor

end Raml.Yaml
