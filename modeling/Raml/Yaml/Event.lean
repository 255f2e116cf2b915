import Raml.Yaml.Token.Scanner

/-! The events of a YAML text: the starts and ends of its documents and collections, its scalars and
its aliases.

A machine with a stack of states reads the tokens. Each state says what is expected next, and each
step gives one event. What is left out between two indicators counts as an empty scalar.
-/

namespace Raml.Yaml

/-- A scalar with its anchor and tag. -/
structure ScalarEvent where
  text : String
  plain : Bool
  anchor : Option String := none
  tag : Option Bytes := none

/-- What an event is. -/
inductive EventKind where
  | streamStart
  | streamEnd
  | documentStart
  | documentEnd
  | alias (name : String)
  | scalar (s : ScalarEvent)
  | sequenceStart (anchor : Option String) (tag : Option Bytes)
  | sequenceEnd
  | mappingStart (anchor : Option String) (tag : Option Bytes)
  | mappingEnd

/-- An event and the place where it starts. -/
structure Event where
  kind : EventKind
  mark : Mark

/-- What is expected next. -/
inductive ParserState where
  | streamStart
  | implicitDocumentStart
  | documentStart
  | documentContent
  | documentEnd
  | blockNode
  | blockSequenceFirst
  | blockSequenceEntry
  | indentlessEntry
  | blockMappingFirst
  | blockMappingKey
  | blockMappingValue
  | flowSequenceFirst
  | flowSequenceEntry
  | flowPairKey
  | flowPairValue
  | flowPairEnd
  | flowMappingFirst
  | flowMappingKey
  | flowMappingValue
  | flowMappingEmptyValue
  | finished
  deriving DecidableEq, Inhabited

/-- The tokens still to be read, the fault behind them, and what is expected. -/
structure EventParser where
  tokens : List Token
  fault : Option Fault
  state : ParserState := .streamStart
  states : List ParserState := []
  /-- Where the open collections started. -/
  marks : List Mark := []
  /-- What the handles of tags stand for. -/
  tagHandles : List (String × Bytes) := []

namespace EventParser

abbrev Step := Except Fault (Event × EventParser)

/-- The next token. -/
def peek (p : EventParser) : Except Fault Token :=
  match p.tokens, p.fault with
  | t :: _, _ => .ok t
  | [], some fault => .error fault
  | [], none => .ok ⟨.streamEnd, {}, {}⟩

/-- Moves past the next token. -/
def skip (p : EventParser) : EventParser := { p with tokens := p.tokens.drop 1 }

/-- Goes to a state. -/
def goTo (p : EventParser) (state : ParserState) : EventParser := { p with state }

/-- Keeps a state for later. -/
def push (p : EventParser) (state : ParserState) : EventParser :=
  { p with states := state :: p.states }

/-- Goes back to the state kept last. -/
def pop (p : EventParser) : EventParser :=
  match p.states with
  | [] => { p with state := .finished }
  | s :: states => { p with state := s, states }

/-- Keeps the place where a collection starts. -/
def pushMark (p : EventParser) (m : Mark) : EventParser := { p with marks := m :: p.marks }

/-- Drops the place where the innermost collection started. -/
def popMark (p : EventParser) : EventParser := { p with marks := p.marks.drop 1 }

/-- A problem at a token of a collection. -/
def failIn (p : EventParser) (activity : Activity) (problem : Problem) (t : Token) : Step :=
  .error (.malformed problem t.start (some (activity, p.marks.headD {})))

/-- A scalar that has been left out. -/
def emptyScalar (p : EventParser) (mark : Mark) : Step :=
  .ok (⟨.scalar { text := "", plain := true }, mark⟩, p)

/-- The handles that need no directive. -/
def defaultHandles : List (String × Bytes) :=
  [("!", Bytes.ofText "!"), ("!!", Bytes.ofText "tag:yaml.org,2002:")]

/-- Reads the directives before a document. -/
def directives : Nat → Bool → List (String × Bytes) → EventParser
    → Except Fault (List (String × Bytes) × EventParser)
  | 0, _, handles, p => .ok (handles, p)
  | fuel + 1, versioned, handles, p => do
      let t ← p.peek
      match t.kind with
      | .version major minor =>
          if versioned then throw (.malformed .duplicateVersion t.start none)
          if major ≠ 1 ∨ (minor ≠ 1 ∧ minor ≠ 2) then
            throw (.malformed .incompatibleVersion t.start none)
          directives fuel true handles p.skip
      | .tagDirective handle lead =>
          if handles.any (·.1 == handle) then
            throw (.malformed .duplicateTagDirective t.start none)
          directives fuel versioned (handles ++ [(handle, lead)]) p.skip
      | _ => return (handles, p)

/-- Reads the directives before a document and adds the handles that need none. -/
def processDirectives (p : EventParser) : Except Fault EventParser := do
  let (handles, p) ← directives (p.tokens.length + 1) false [] p
  let missing := defaultHandles.filter fun h => !handles.any (·.1 == h.1)
  return { p with tagHandles := handles ++ missing }

/-- Moves past the marks that end documents. -/
def skipDocumentEnds : Nat → EventParser → Except Fault EventParser
  | 0, p => .ok p
  | fuel + 1, p => do
      let t ← p.peek
      if t.kind = .documentEnd then skipDocumentEnds fuel p.skip else return p

/-- A document, or the end. The first document needs no mark. -/
def documentStart (isFirst : Bool) (p : EventParser) : Step := do
  let p ← if isFirst then pure p else skipDocumentEnds (p.tokens.length + 1) p
  let t ← p.peek
  let bare :=
    match t.kind with
    | .version .. | .tagDirective .. | .documentStart | .streamEnd => false
    | _ => true
  if isFirst && bare then
    let p ← p.processDirectives
    return (⟨.documentStart, t.start⟩, (p.push .documentEnd).goTo .blockNode)
  else if t.kind = .streamEnd then return (⟨.streamEnd, t.start⟩, p.skip.goTo .finished)
  else
    let p ← p.processDirectives
    let mark ← p.peek
    if mark.kind ≠ .documentStart then
      throw (.malformed .expectedDocumentStart mark.start none)
    return (⟨.documentStart, t.start⟩, (p.push .documentEnd).skip.goTo .documentContent)

/-- The anchor and the tag of a node as they are written. -/
structure Properties where
  anchor : Option String := none
  tag : Option (String × Bytes × Mark) := none
  /-- Where the node starts, if it has any of them. -/
  start : Option Mark := none

/-- Reads an anchor and a tag in either order. -/
def properties (p : EventParser) : Except Fault (Properties × EventParser) := do
  let t ← p.peek
  match t.kind with
  | .anchor name =>
      let p := p.skip
      let u ← p.peek
      match u.kind with
      | .tag handle suffix =>
          return (⟨some name, some (handle, suffix, u.start), some t.start⟩, p.skip)
      | _ => return (⟨some name, none, some t.start⟩, p)
  | .tag handle suffix =>
      let p := p.skip
      let u ← p.peek
      match u.kind with
      | .anchor name =>
          return (⟨some name, some (handle, suffix, t.start), some t.start⟩, p.skip)
      | _ => return (⟨none, some (handle, suffix, t.start), some t.start⟩, p)
  | _ => return ({}, p)

/-- The full text of a tag. -/
def fullTag (p : EventParser) (start : Mark) : Option (String × Bytes × Mark)
    → Except Fault (Option Bytes)
  | none => .ok none
  | some (handle, suffix, mark) =>
      if handle = "" then .ok (some suffix)
      else
        match p.tagHandles.lookup handle with
        | some lead => .ok (some (lead ++ suffix))
        | none => .error (.malformed .undefinedTagHandle mark (some (.node, start)))

/-- A node. In a block it may be a block collection, in a mapping a sequence that is not indented. -/
def node (block indentless : Bool) (p : EventParser) : Step := do
  let t ← p.peek
  match t.kind with
  | .alias name => return (⟨.alias name, t.start⟩, p.pop.skip)
  | _ =>
      let (props, p) ← p.properties
      let start := props.start.getD t.start
      let t ← p.peek
      let tag ← p.fullTag start props.tag
      let sequence (state : ParserState) : Step :=
        .ok (⟨.sequenceStart props.anchor tag, start⟩, p.goTo state)
      let mapping (state : ParserState) : Step :=
        .ok (⟨.mappingStart props.anchor tag, start⟩, p.goTo state)
      match t.kind with
      | .scalar text style =>
          let tag := if tag = some (Bytes.ofText "!") then none else tag
          let event : ScalarEvent := ⟨text, style == .plain, props.anchor, tag⟩
          return (⟨.scalar event, start⟩, p.pop.skip)
      | .flowSequenceStart => sequence .flowSequenceFirst
      | .flowMappingStart => mapping .flowMappingFirst
      | kind =>
          if indentless && kind == .blockEntry then sequence .indentlessEntry
          else if block && kind == .blockSequenceStart then sequence .blockSequenceFirst
          else if block && kind == .blockMappingStart then mapping .blockMappingFirst
          else if props.anchor.isSome || tag.isSome then
            return (⟨.scalar ⟨"", true, props.anchor, tag⟩, start⟩, p.pop)
          else
            throw (.malformed .expectedNode t.start
              (some (if block then .blockNode else .flowNode, start)))

/-- A node, unless one of `stops` comes: then it has been left out. -/
def nodeUnless (stops : List TokenKind) (block indentless : Bool) (next : ParserState) (mark : Mark)
    (p : EventParser) : Step := do
  let t ← p.peek
  if stops.contains t.kind then (p.goTo next).emptyScalar mark
  else (p.push next).node block indentless

/-- The bracket that opens a collection, if it has not been read yet. -/
def enter (isFirst : Bool) (p : EventParser) : Except Fault EventParser := do
  if isFirst then
    let t ← p.peek
    return (p.pushMark t.start).skip
  else return p

/-- An entry of a block sequence. -/
def blockSequenceEntry (isFirst : Bool) (p : EventParser) : Step := do
  let p ← p.enter isFirst
  let t ← p.peek
  match t.kind with
  | .blockEntry =>
      p.skip.nodeUnless [.blockEntry, .blockEnd] true false .blockSequenceEntry t.stop
  | .blockEnd => return (⟨.sequenceEnd, t.start⟩, p.pop.popMark.skip)
  | _ => p.failIn .blockCollection .expectedDash t

/-- An entry of a sequence that is not indented. -/
def indentlessEntry (p : EventParser) : Step := do
  let t ← p.peek
  match t.kind with
  | .blockEntry =>
      p.skip.nodeUnless [.blockEntry, .key, .value, .blockEnd] true false .indentlessEntry t.stop
  | _ => return (⟨.sequenceEnd, t.start⟩, p.pop)

/-- A key of a block mapping. -/
def blockMappingKey (isFirst : Bool) (p : EventParser) : Step := do
  let p ← p.enter isFirst
  let t ← p.peek
  match t.kind with
  | .key => p.skip.nodeUnless [.key, .value, .blockEnd] true true .blockMappingValue t.stop
  | .blockEnd => return (⟨.mappingEnd, t.start⟩, p.pop.popMark.skip)
  | _ => p.failIn .blockMapping .expectedKey t

/-- A value of a block mapping. -/
def blockMappingValue (p : EventParser) : Step := do
  let t ← p.peek
  match t.kind with
  | .value => p.skip.nodeUnless [.key, .value, .blockEnd] true true .blockMappingKey t.stop
  | _ => (p.goTo .blockMappingKey).emptyScalar t.start

/-- Moves past the comma before an entry that is not the first. -/
def comma (isFirst : Bool) (closing : TokenKind) (activity : Activity) (problem : Problem)
    (p : EventParser) : Except Fault EventParser := do
  let t ← p.peek
  if isFirst || t.kind == closing then return p
  else if t.kind == .flowEntry then return p.skip
  else throw (.malformed problem t.start (some (activity, p.marks.headD {})))

/-- An entry of a flow sequence; a key makes it a mapping of one pair. -/
def flowSequenceEntry (isFirst : Bool) (p : EventParser) : Step := do
  let p ← p.enter isFirst
  let p ← p.comma isFirst .flowSequenceEnd .flowSequence .expectedCommaOrBracket
  let t ← p.peek
  match t.kind with
  | .flowSequenceEnd => return (⟨.sequenceEnd, t.start⟩, p.pop.popMark.skip)
  | .key => return (⟨.mappingStart none none, t.start⟩, p.skip.goTo .flowPairKey)
  | _ => (p.push .flowSequenceEntry).node false false

/-- The key of a pair in a flow sequence. Where it is left out, the token in its place is lost. -/
def flowPairKey (p : EventParser) : Step := do
  let t ← p.peek
  match t.kind with
  | .value | .flowEntry | .flowSequenceEnd => (p.skip.goTo .flowPairValue).emptyScalar t.stop
  | _ => (p.push .flowPairValue).node false false

/-- The value of a pair in a flow sequence. -/
def flowPairValue (p : EventParser) : Step := do
  let t ← p.peek
  if t.kind == .value then
    let p := p.skip
    let t ← p.peek
    p.nodeUnless [.flowEntry, .flowSequenceEnd] false false .flowPairEnd t.start
  else (p.goTo .flowPairEnd).emptyScalar t.start

/-- The end of a pair in a flow sequence. -/
def flowPairEnd (p : EventParser) : Step := do
  let t ← p.peek
  return (⟨.mappingEnd, t.start⟩, p.goTo .flowSequenceEntry)

/-- A key of a flow mapping. -/
def flowMappingKey (isFirst : Bool) (p : EventParser) : Step := do
  let p ← p.enter isFirst
  let p ← p.comma isFirst .flowMappingEnd .flowMapping .expectedCommaOrBrace
  let t ← p.peek
  match t.kind with
  | .flowMappingEnd => return (⟨.mappingEnd, t.start⟩, p.pop.popMark.skip)
  | .key =>
      let p := p.skip
      let t ← p.peek
      p.nodeUnless [.value, .flowEntry, .flowMappingEnd] false false .flowMappingValue t.start
  | _ => (p.push .flowMappingEmptyValue).node false false

/-- A value of a flow mapping. -/
def flowMappingValue (p : EventParser) : Step := do
  let t ← p.peek
  if t.kind == .value then
    let p := p.skip
    let t ← p.peek
    p.nodeUnless [.flowEntry, .flowMappingEnd] false false .flowMappingKey t.start
  else (p.goTo .flowMappingKey).emptyScalar t.start

/-- One event. -/
def step (p : EventParser) : Step := do
  match p.state with
  | .streamStart =>
      let t ← p.peek
      return (⟨.streamStart, t.start⟩, p.skip.goTo .implicitDocumentStart)
  | .implicitDocumentStart => p.documentStart true
  | .documentStart => p.documentStart false
  | .documentContent =>
      let t ← p.peek
      match t.kind with
      | .version .. | .tagDirective .. | .documentStart | .documentEnd | .streamEnd =>
          p.pop.emptyScalar t.start
      | _ => p.node true false
  | .documentEnd =>
      let t ← p.peek
      let q := if t.kind = .documentEnd then p.skip else p
      return (⟨.documentEnd, t.start⟩, { q with tagHandles := [], state := .documentStart })
  | .blockNode => p.node true false
  | .blockSequenceFirst => p.blockSequenceEntry true
  | .blockSequenceEntry => p.blockSequenceEntry false
  | .indentlessEntry => p.indentlessEntry
  | .blockMappingFirst => p.blockMappingKey true
  | .blockMappingKey => p.blockMappingKey false
  | .blockMappingValue => p.blockMappingValue
  | .flowSequenceFirst => p.flowSequenceEntry true
  | .flowSequenceEntry => p.flowSequenceEntry false
  | .flowPairKey => p.flowPairKey
  | .flowPairValue => p.flowPairValue
  | .flowPairEnd => p.flowPairEnd
  | .flowMappingFirst => p.flowMappingKey true
  | .flowMappingKey => p.flowMappingKey false
  | .flowMappingValue => p.flowMappingValue
  | .flowMappingEmptyValue =>
      let t ← p.peek
      (p.goTo .flowMappingKey).emptyScalar t.start
  | .finished => return (⟨.streamEnd, {}⟩, p)

/-- Events as long as there are any. The fault, if any, comes behind them. -/
def run : Nat → EventParser → List Event × Option Fault
  | 0, _ => ([], none)
  | fuel + 1, p =>
      if p.state = .finished then ([], none)
      else
        match p.step with
        | .error fault => ([], some fault)
        | .ok (e, p) =>
            let (es, fault) := run fuel p
            (e :: es, fault)

end EventParser

/-- The events of a text. If the text breaks off, the fault comes behind those before it. -/
def Event.ofTokens (tokens : List Token) (fault : Option Fault) : List Event × Option Fault :=
  EventParser.run (4 * tokens.length + 16) { tokens, fault }

end Raml.Yaml
