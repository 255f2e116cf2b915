import Raml.Error
import Raml.Json.Printer
import Raml.Json.Reader
import Raml.Json.Skip
import Raml.Settings

/-! Reading settings from JSON text.

Settings are an object, or a list of their values in order. Faults tell the way to the value and the
place in the text. A value that is of the wrong form is at fault behind its last byte; an unknown or
repeated key, which is known to be wrong only by what is read around it, behind the bracket that
closes its object, if that comes next. The check options may hold unknown keys, whose values are
skipped. What follows the settings is not read.
-/

namespace Raml.Settings

open Json (Cursor Failure)

/-- One step of the way to a value. -/
inductive Step where
  | key (name : String)
  | item (index : Nat)
  /-- To a key that cannot be read. -/
  | unknown
  deriving DecidableEq

/-- The text of a way that has begun. -/
def wayFrom : List Step → String
  | [] => ""
  | .key name :: steps => "." ++ name ++ wayFrom steps
  | .item i :: steps => s!"[{i}]" ++ wayFrom steps
  | .unknown :: steps => ".?" ++ wayFrom steps

/-- The text of a way; a point stands for the text as a whole. -/
def wayText : List Step → String
  | [] => "."
  | .key name :: steps => name ++ wayFrom steps
  | .unknown :: steps => "?" ++ wayFrom steps
  | steps => wayFrom steps

/-- What is at fault: it has its place, or takes that of the object around it. -/
inductive Cause where
  | placed (fault : SettingsFault)
  | unplaced (m : Mismatch) (c : Cursor)

structure Trouble where
  steps : List Step
  cause : Cause

abbrev Read (α : Type) := Cursor → Except Trouble (α × Cursor)

/-- Text that is no JSON. -/
def malformed {α : Type} (steps : List Step) (failure : Failure) : Except Trouble α :=
  .error ⟨steps, .placed (.malformed failure)⟩

/-- A fault of what `read` does lies behind one more step. -/
def behindStep {α : Type} (step : Step) (result : Except Trouble α) : Except Trouble α :=
  result.mapError fun t => { t with steps := step :: t.steps }

/-- Lifts the reading of a part of JSON text. -/
def lift {α : Type} (result : Except Failure α) : Except Trouble α :=
  match result with
  | .ok x => .ok x
  | .error failure => malformed [] failure

/-- What comes next and the cursor behind it. Lists and objects are not read. -/
def found (c : Cursor) : Except Failure (Found × Cursor) := do
  match c.peek? with
  | none => throw (c.behind .endInValue)
  | some b =>
      if b = Cursor.byte '[' then return (.sequence, c)
      else if b = Cursor.byte '{' then return (.map, c)
      else
        let (j, c) ← Cursor.value .all 0 () c
        match j with
        | .bool b => return (.bool b, c)
        | .int i => return (.int i, c)
        | .float x => return (.float (Json.floatText x), c)
        | .str s => return (.str s, c)
        | _ => return (.null, c)

/-- A value of the wrong form. -/
def wrong {α : Type} (expected : String) (c : Cursor) : Except Trouble α := do
  let (found, c) ← lift (found c)
  .error ⟨[], .placed (.mismatch (.invalidType found expected) c.place)⟩

/-- Reads what comes behind blanks; there has to be something. -/
def next {α : Type} (read : UInt8 → Read α) : Read α := fun c =>
  let c := c.skipBlanks
  match c.peek? with
  | none => malformed [] (c.behind .endInValue)
  | some b => read b c

def bool : Read Bool := next fun b c =>
  if b = Cursor.byte 't' then do return (true, ← lift (Cursor.word "rue".toList c.advance))
  else if b = Cursor.byte 'f' then do return (false, ← lift (Cursor.word "alse".toList c.advance))
  else wrong "a boolean" c

/-- Whether a byte starts a number. -/
def startsNumber (b : UInt8) : Bool :=
  b = Cursor.byte '-' || (Cursor.byte '0' ≤ b && b ≤ Cursor.byte '9')

def int64 : Read Int64 := next fun b c => do
  if startsNumber b then
    match ← lift (found c) with
    | (.int i, c) =>
        match int64? i with
        | some w => return (w, c)
        | none => .error ⟨[], .placed (.mismatch (.invalidValue (.int i) "i64") c.place)⟩
    | (other, c) => .error ⟨[], .placed (.mismatch (.invalidType other "i64") c.place)⟩
  else wrong "i64" c

def path? : Read (Option Path) := next fun b c =>
  if b = Cursor.byte 'n' then do return (none, ← lift (Cursor.word "ull".toList c.advance))
  else if b = Cursor.byte '"' then do
    let (s, c) ← lift c.advance.string
    return (some ⟨s⟩, c)
  else wrong "path string" c

/-- A field: its key, and how its value is read into the whole. -/
structure Field (σ : Type) where
  key : String
  read : σ → Read σ

/-- The field of a key whose value `read` reads and `set` puts into the whole. -/
def Field.of {σ α : Type} (key : String) (read : Read α) (set : σ → α → σ) : Field σ :=
  { key, read := fun s c => do
      let (x, c) ← read c
      return (set s x, c) }

/-- A record: its name, its fields, and whether it may hold other keys. -/
structure Shape (σ : Type) where
  name : String
  fields : List (Field σ)
  isOpen : Bool

/-- Reads the members of an object into a whole; `seen` are the keys before. -/
def members {σ : Type} (shape : Shape σ)
    : Nat → Bool → List String → σ → Cursor → Except Trouble (σ × Cursor)
  | 0, _, _, _, c => malformed [] (c.behind .endInObject)
  | fuel + 1, first, seen, s, c =>
      match c.nextKey first with
      | .error failure => malformed [.unknown] failure
      | .ok none => .ok (s, c.skipBlanks)
      | .ok (some c) =>
          match c.string with
          | .error failure => malformed [.unknown] failure
          | .ok (key, c) =>
              match shape.fields.find? (·.key == key) with
              | none =>
                  if shape.isOpen then do
                    let c ← lift c.colon
                    let c ← behindStep (.key key) (lift c.skipValue)
                    members shape fuel false seen s c
                  else
                    .error ⟨[.key key], .unplaced (.unknownField key (shape.fields.map Field.key)) c⟩
              | some field =>
                  if seen.contains key then .error ⟨[], .unplaced (.duplicateField key) c⟩
                  else do
                    let c ← lift c.colon
                    let (s, c) ← behindStep (.key key) (field.read s c)
                    members shape fuel false (key :: seen) s c

/-- Reads the items of a list as the values of fields in order. A list may end early. -/
def items {σ : Type} (index : Nat) (first : Bool)
    : List (Field σ) → σ → Cursor → Except Trouble (σ × Cursor)
  | [], s, c => .ok (s, c)
  | field :: fields, s, c => do
      match ← lift (c.nextItem first) with
      | none => return (s, c)
      | some c =>
          let (s, c) ← behindStep (.item index) (field.read s c)
          items (index + 1) false fields s c

/-- The cursor behind blanks and the bracket that closes, if that comes next. -/
def behindBracket (closing : Char) (c : Cursor) : Cursor :=
  let c := c.skipBlanks
  if c.peek? = some (Cursor.byte closing) then c.advance else c

/-- Gives a fault without a place the one behind the bracket that closes. -/
def place {α : Type} (closing : Char) (result : Except Trouble α) : Except Trouble α :=
  result.mapError fun t =>
    match t.cause with
    | .unplaced m c => { t with cause := .placed (.mismatch m (behindBracket closing c).place) }
    | .placed _ => t

/-- Reads a whole that starts from `default`: an object of its fields, or a list of their values. -/
def record {σ : Type} (shape : Shape σ) (default : σ) : Read σ :=
  next fun b c => do
    if b = Cursor.byte '{' then
      let (s, c) ←
        place '}' (members shape (c.rest.length + 1) true [] default c.advance)
      return (s, ← lift c.endObject)
    else if b = Cursor.byte '[' then
      let (s, c) ← place ']' (items 0 true shape.fields default c.advance)
      return (s, ← lift c.endList)
    else wrong ("struct " ++ shape.name) c

/-- Check options may hold keys that mean nothing. -/
def checkShape : Shape CheckOptions :=
  { name := "CheckValueOptions"
    fields :=
      [.of "allowIntegerToBeNumber" bool fun o b => { o with integerAsNumber := b },
        .of "allowArrayToBeNull" bool fun o b => { o with nullAsArray := b },
        .of "allowRequiredPropertyToBeEmpty" bool fun o b => { o with emptyRequired := b }]
    isOpen := true }

def checkOptions : Read CheckOptions := record checkShape {}

/-- Settings hold no other keys. -/
def shape : Shape Settings :=
  { name := "ParserConfig"
    fields :=
      [.of "checkRamlVersion" bool fun s b => { s with checkVersion := b },
        .of "checkValueOptions" checkOptions fun s o => { s with check := o },
        .of "ignoreUnusedAnnotation" bool fun s b => { s with ignoreUnusedAnnotations := b },
        .of "ignoreUnusedTrait" bool fun s b => { s with ignoreUnusedTraits := b },
        .of "cacheDirectory" path? fun s p => { s with cacheDirectory := p },
        .of "errorTraceDistance" int64 fun s d => { s with excerptDistance := d }]
    isOpen := false }

/-- Reads settings. What is not given has its default. -/
def read (bytes : Bytes) : Except Error Settings :=
  match record shape {} { rest := bytes } with
  | .ok (s, _) => .ok s
  | .error ⟨steps, .placed fault⟩ => .error (.settings (wayText steps) fault)
  | .error ⟨steps, .unplaced m c⟩ => .error (.settings (wayText steps) (.mismatch m c.place))

/-- Settings as JSON. -/
def toJson (s : Settings) : Json :=
  .obj [("checkRamlVersion", .bool s.checkVersion),
    ("checkValueOptions", .obj [
      ("allowIntegerToBeNumber", .bool s.check.integerAsNumber),
      ("allowArrayToBeNull", .bool s.check.nullAsArray),
      ("allowRequiredPropertyToBeEmpty", .bool s.check.emptyRequired)]),
    ("ignoreUnusedAnnotation", .bool s.ignoreUnusedAnnotations),
    ("ignoreUnusedTrait", .bool s.ignoreUnusedTraits),
    ("cacheDirectory",
      match s.cacheDirectory with
      | some path => .str path.text
      | none => .null),
    ("errorTraceDistance", .int s.excerptDistance.toInt)]

end Raml.Settings
