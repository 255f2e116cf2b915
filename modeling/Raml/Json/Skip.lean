import Raml.Json.Cursor

/-! Moving past JSON values that are not read.

A value that is skipped has to be well-formed, but nothing is made of it: numbers may be of any
size, strings may hold bytes that are no text, and brackets may be nested to any depth.
-/

namespace Raml.Json.Cursor

/-- Moves past digits. -/
def skipDigits (c : Cursor) : Cursor := c.digits.2

/-- Moves past an exponent, behind its mark. -/
def skipExponent (c : Cursor) : Except Failure Cursor :=
  let c :=
    match c.peek? with
    | some b => if b = byte '+' || b = byte '-' then c.advance else c
    | none => c
  if c.digits.1.isEmpty then .error (c.advance.behind .invalidNumber) else .ok c.skipDigits

/-- Moves past an exponent, if there is one. -/
def skipExponentIfAny (c : Cursor) : Except Failure Cursor :=
  match c.peek? with
  | some b => if b = byte 'e' || b = byte 'E' then c.advance.skipExponent else .ok c
  | none => .ok c

/-- Moves past a number, behind its sign. -/
def skipNumber (c : Cursor) : Except Failure Cursor :=
  match c.digits with
  | ([], _) => .error (c.advance.behind .invalidNumber)
  | ('0' :: _ :: _, _) => .error (c.advance.ahead .invalidNumber)
  | (_, c) =>
      match c.peek? with
      | some b =>
          if b = byte '.' then
            let c := c.advance
            if c.digits.1.isEmpty then .error (c.ahead .invalidNumber)
            else c.skipDigits.skipExponentIfAny
          else c.skipExponentIfAny
      | none => .ok c

/-- Moves past an escape, behind its backslash. -/
def skipEscape (c : Cursor) : Except Failure Cursor :=
  match c.peek? with
  | none => .error (c.behind .endInString)
  | some b =>
      if b = byte 'u' then c.advance.hex4.map (·.2)
      else if "\"\\/bfnrt".toList.any fun ch => b = byte ch then .ok c.advance
      else .error (c.advance.behind .invalidEscape)

/-- Moves past the rest of a string. -/
def skipStringRest : Nat → Cursor → Except Failure Cursor
  | 0, c => .error (c.behind .endInString)
  | fuel + 1, c =>
      match c.peek? with
      | none => .error (c.behind .endInString)
      | some b =>
          if b = byte '"' then .ok c.advance
          else if b = byte '\\' then do skipStringRest fuel (← c.advance.skipEscape)
          else if b < 0x20 then .error (c.behind .controlCharacter)
          else skipStringRest fuel c.advance

/-- Moves past a string, behind its opening quote. -/
def skipString (c : Cursor) : Except Failure Cursor := c.skipStringRest (c.rest.length + 1)

/-- The brackets that hold several values. -/
inductive Bracket where
  | list
  | object
  deriving DecidableEq, Inhabited

/-- The byte that closes a bracket. -/
def Bracket.closing : Bracket → UInt8
  | .list => byte ']'
  | .object => byte '}'

/-- What is wrong if the text ends between brackets. -/
def Bracket.unended : Bracket → Fault
  | .list => .endInList
  | .object => .endInObject

/-- What is wrong if a value between brackets is followed by neither a comma nor the end. -/
def Bracket.unclosed : Bracket → Fault
  | .list => .expectedListEnd
  | .object => .expectedObjectEnd

/-- Moves past what stands before a value between brackets: the key, if it is an object. -/
def skipKey (bracket : Bracket) (c : Cursor) : Except Failure Cursor :=
  match bracket with
  | .list => .ok c
  | .object => do
      let c := c.skipBlanks
      match c.peek? with
      | none => .error (c.behind .endInObject)
      | some b =>
          if b = byte '"' then do
            let c := (← c.advance.skipString).skipBlanks
            match c.peek? with
            | none => .error (c.behind .endInObject)
            | some b => if b = byte ':' then .ok c.advance else .error (c.ahead .expectedColon)
          else .error (c.ahead .keyNotString)

/-- Moves past a value that opens no bracket, of which `b` is the first byte. -/
def skipScalar (b : UInt8) (c : Cursor) : Except Failure Cursor :=
  if b = byte 'n' then word "ull".toList c.advance
  else if b = byte 't' then word "rue".toList c.advance
  else if b = byte 'f' then word "alse".toList c.advance
  else if b = byte '-' then c.advance.skipNumber
  else if byte '0' ≤ b && b ≤ byte '9' then c.skipNumber
  else if b = byte '"' then c.advance.skipString
  else .error (c.ahead .expectedValue)

mutual

/-- Moves past a value and then to the end of the brackets that are open around it. -/
def skipFrom : Nat → List Bracket → Cursor → Except Failure Cursor
  | 0, _, c => .error (c.behind .endInValue)
  | fuel + 1, around, c => do
      let c := c.skipBlanks
      match c.peek? with
      | none => .error (c.behind .endInValue)
      | some b =>
          if b = byte '[' then skipRest fuel (.list :: around) false c.advance
          else if b = byte '{' then skipRest fuel (.object :: around) false c.advance
          else skipRest fuel around true (← skipScalar b c)

/-- Moves to the end of open brackets; the flag says that a value lies right behind. -/
def skipRest : Nat → List Bracket → Bool → Cursor → Except Failure Cursor
  | 0, _, _, c => .error (c.behind .endInValue)
  | _ + 1, [], _, c => .ok c
  | fuel + 1, bracket :: around, behindValue, c => do
      let c := c.skipBlanks
      match c.peek? with
      | none => .error (c.behind bracket.unended)
      | some b =>
          if b = bracket.closing then skipRest fuel around true c.advance
          else if !behindValue then skipFrom fuel (bracket :: around) (← skipKey bracket c)
          else if b = byte ',' then
            skipFrom fuel (bracket :: around) (← skipKey bracket c.advance)
          else .error (c.ahead bracket.unclosed)

end

/-- Moves past a value. -/
def skipValue (c : Cursor) : Except Failure Cursor := c.skipFrom (2 * c.rest.length + 2) []

end Raml.Json.Cursor
