/-! Bytes and the text they encode. -/

namespace Raml

/-- File content. -/
abbrev Bytes := List UInt8

namespace Utf8

/-- What the front of a byte sequence is: a character, or the longest start of one that the next
byte breaks off. The rest follows. -/
inductive Front where
  | char (c : Char) (rest : Bytes)
  | broken (rest : Bytes)

/-- Bytes that continue a character. -/
def isTail (b : UInt8) : Bool := 0x80 ≤ b && b ≤ 0xBF

/-- Bytes that may follow `lead` in a character of more than two bytes. -/
def isSecond (lead b : UInt8) : Bool :=
  if lead = 0xE0 then 0xA0 ≤ b && b ≤ 0xBF
  else if lead = 0xED then 0x80 ≤ b && b ≤ 0x9F
  else if lead = 0xF0 then 0x90 ≤ b && b ≤ 0xBF
  else if lead = 0xF4 then 0x80 ≤ b && b ≤ 0x8F
  else isTail b

/-- The payload of a byte that continues a character. -/
def payload (b : UInt8) : Nat := b.toNat % 64

/-- The front of `lead :: rest`. -/
def front (lead : UInt8) (rest : Bytes) : Front :=
  if lead < 0x80 then .char (Char.ofNat lead.toNat) rest
  else if 0xC2 ≤ lead && lead ≤ 0xDF then
    match rest with
    | b :: r =>
        if isTail b then .char (Char.ofNat (lead.toNat % 32 * 64 + payload b)) r
        else .broken rest
    | [] => .broken rest
  else if 0xE0 ≤ lead && lead ≤ 0xEF then
    match rest with
    | b :: r =>
        if !isSecond lead b then .broken rest
        else match r with
          | c :: r' =>
              if isTail c then
                .char (Char.ofNat ((lead.toNat % 16 * 64 + payload b) * 64 + payload c)) r'
              else .broken r
          | [] => .broken r
    | [] => .broken rest
  else if 0xF0 ≤ lead && lead ≤ 0xF4 then
    match rest with
    | b :: r =>
        if !isSecond lead b then .broken rest
        else match r with
          | c :: r' =>
              if !isTail c then .broken r
              else match r' with
                | d :: r'' =>
                    if isTail d then
                      .char (Char.ofNat (((lead.toNat % 8 * 64 + payload b) * 64 + payload c) * 64
                        + payload d)) r''
                    else .broken r'
                | [] => .broken r'
          | [] => .broken r
    | [] => .broken rest
  else .broken rest

/-- What follows the front of a byte sequence. -/
def Front.rest : Front → Bytes
  | .char _ r => r
  | .broken r => r

theorem front_rest_length (lead : UInt8) (rest : Bytes)
    : (front lead rest).rest.length ≤ rest.length := by
  unfold front
  repeat' split
  all_goals simp only [Front.rest, List.length_cons]
  all_goals omega

/-- The characters of a byte sequence; each broken stretch becomes one replacement character. -/
def lossyChars : Bytes → List Char
  | [] => []
  | b :: r =>
      have := front_rest_length b r
      match h : front b r with
      | .char c r' =>
          have : r'.length ≤ r.length := by simpa [h, Front.rest] using this
          c :: lossyChars r'
      | .broken r' =>
          have : r'.length ≤ r.length := by simpa [h, Front.rest] using this
          Char.ofNat 0xFFFD :: lossyChars r'
termination_by bs => bs.length
decreasing_by all_goals simp only [List.length_cons]; omega

/-- The text of a byte sequence; each broken stretch becomes one replacement character. -/
def lossy (bytes : Bytes) : String := String.ofList (lossyChars bytes)

/-- The characters of a byte sequence that encodes text throughout. -/
def chars? : Bytes → Option (List Char)
  | [] => some []
  | b :: r =>
      have := front_rest_length b r
      match h : front b r with
      | .char c r' =>
          have : r'.length ≤ r.length := by simpa [h, Front.rest] using this
          (chars? r').map (c :: ·)
      | .broken _ => none
termination_by bs => bs.length
decreasing_by simp only [List.length_cons]; omega

/-- The text of a byte sequence that encodes text throughout. -/
def text? (bytes : Bytes) : Option String := (chars? bytes).map String.ofList

end Utf8

/-- The bytes that encode a text. -/
def Bytes.ofText (s : String) : Bytes := s.toUTF8.toList

end Raml
