import Raml.Json
import Raml.Json.Skip

/-! Reading JSON text as a value. -/

namespace Raml.Json

namespace Cursor

/-- Moves to the next item of a list, past the comma before it; `none` at the end of the list. -/
def nextItem (first : Bool) (c : Cursor) : Except Failure (Option Cursor) :=
  let c := c.skipBlanks
  match c.peek? with
  | none => .error (c.behind .endInList)
  | some b =>
      if b = byte ']' then .ok none
      else if first then .ok (some c)
      else if b = byte ',' then
        let c := c.advance.skipBlanks
        match c.peek? with
        | none => .error (c.behind .endInValue)
        | some b => if b = byte ']' then .error (c.ahead .trailingComma) else .ok (some c)
      else .error (c.ahead .expectedListEnd)

/-- Moves to the next key of an object, past the comma before it and its opening quote; `none` at
the end of the object. -/
def nextKey (first : Bool) (c : Cursor) : Except Failure (Option Cursor) :=
  let c := c.skipBlanks
  let key (c : Cursor) : Except Failure (Option Cursor) :=
    match c.peek? with
    | none => .error (c.behind .endInValue)
    | some b =>
        if b = byte '"' then .ok (some c.advance)
        else if b = byte '}' then .error (c.ahead .trailingComma)
        else .error (c.ahead .keyNotString)
  match c.peek? with
  | none => .error (c.behind .endInObject)
  | some b =>
      if b = byte '}' then .ok none
      else if first then key c
      else if b = byte ',' then key c.advance.skipBlanks
      else .error (c.ahead .expectedObjectEnd)

/-- Moves past the colon between a key and its value. -/
def colon (c : Cursor) : Except Failure Cursor :=
  let c := c.skipBlanks
  match c.peek? with
  | none => .error (c.behind .endInObject)
  | some b => if b = byte ':' then .ok c.advance else .error (c.ahead .expectedColon)

/-- Moves past the bracket that ends a list. -/
def endList (c : Cursor) : Except Failure Cursor :=
  let c := c.skipBlanks
  match c.peek? with
  | none => .error (c.behind .endInList)
  | some b =>
      if b = byte ']' then .ok c.advance
      else if b = byte ',' then
        let c := c.advance.skipBlanks
        if c.peek? = some (byte ']') then .error (c.ahead .trailingComma)
        else .error (c.ahead .trailingCharacters)
      else .error (c.ahead .trailingCharacters)

/-- Moves past the brace that ends an object. -/
def endObject (c : Cursor) : Except Failure Cursor :=
  let c := c.skipBlanks
  match c.peek? with
  | none => .error (c.behind .endInObject)
  | some b =>
      if b = byte '}' then .ok c.advance
      else if b = byte ',' then .error (c.ahead .trailingComma)
      else .error (c.ahead .trailingCharacters)

/-- A key as it is written, behind its opening quote. -/
def writtenKey (c : Cursor) : Except Failure (String × Cursor) := do
  let (key, after) ← c.string
  let written := c.rest.take (c.rest.length - after.rest.length - 1)
  .ok ((Utf8.text? written).getD key, after)

/-- The items of a list, each read by what `one` tells for its place. -/
def items (one : Nat → Cursor → Except Failure (Json × Cursor))
    : Nat → Nat → Cursor → Except Failure (List Json × Cursor)
  | 0, _, c => .error (c.behind .endInList)
  | fuel + 1, index, c => do
      match ← c.nextItem (index == 0) with
      | none => .ok ([], ← c.endList)
      | some c =>
          let (j, c) ← one index c
          let (js, c) ← items one fuel (index + 1) c
          .ok (j :: js, c)

/-- The members of an object, each read by what `one` tells for its key, or left out. -/
def members (readKey : Cursor → Except Failure (String × Cursor))
    (one : String → Option (Cursor → Except Failure (Json × Cursor)))
    : Nat → Bool → Cursor → Except Failure (List (String × Json) × Cursor)
  | 0, _, c => .error (c.behind .endInObject)
  | fuel + 1, first, c => do
      match ← c.nextKey first with
      | none => .ok ([], ← c.endObject)
      | some c =>
          let (key, c) ← readKey c
          let c ← c.colon
          match one key with
          | none => members readKey one fuel false (← c.skipValue)
          | some read =>
              let (j, c) ← read c
              let (ms, c) ← members readKey one fuel false c
              .ok ((key, j) :: ms, c)

/-- A value of which the selected parts are read. Their brackets are nested no deeper than `depth`.
-/
def value {Part : Type} (s : Selection Part) : Nat → Part → Cursor → Except Failure (Json × Cursor)
  | depth, part, c =>
      let c := c.skipBlanks
      match c.peek? with
      | none => .error (c.behind .endInValue)
      | some b =>
          if b = byte 'n' then do .ok (.null, ← word "ull".toList c.advance)
          else if b = byte 't' then do .ok (.bool true, ← word "rue".toList c.advance)
          else if b = byte 'f' then do .ok (.bool false, ← word "alse".toList c.advance)
          else if b = byte '-' then number true c.advance
          else if byte '0' ≤ b && b ≤ byte '9' then number false c
          else if b = byte '"' then do
            let (s, c) ← c.advance.string
            .ok (.str s, c)
          else if b = byte '[' then
            match depth with
            | 0 => .error (c.ahead .tooDeep)
            | depth + 1 => do
                let one (index : Nat) := value s depth (s.item part index)
                let (js, after) ← items one (c.rest.length + 1) 0 c.advance
                .ok (.arr js, after)
          else if b = byte '{' then
            match depth with
            | 0 => .error (c.ahead .tooDeep)
            | depth + 1 => do
                let readKey := if s.keysAsWritten part then writtenKey else string
                let one (key : String) := (s.member? part key).map (value s depth)
                let (ms, after) ← members readKey one (c.rest.length + 1) true c.advance
                .ok (.obj ms, after)
          else .error (c.ahead .expectedValue)

end Cursor

/-- How deep brackets may be nested. -/
def depthLimit : Nat := 127

/-- Reads the selected parts of a text that holds one value and nothing but blanks around it.
Members with one key are all kept. -/
def readParts {Part : Type} (s : Selection Part) (part : Part) (bytes : Bytes)
    : Except Failure Json := do
  let (j, c) ← Cursor.value s depthLimit part ⟨bytes, {}⟩
  let c := c.skipBlanks
  match c.peek? with
  | none => .ok j
  | some _ => .error (c.ahead .trailingCharacters)

/-- Reads a text that holds one value and nothing but blanks around it. Of several members with one
key the last one counts. -/
def read (bytes : Bytes) : Except Failure Json := (readParts .all () bytes).map collapse

end Raml.Json
