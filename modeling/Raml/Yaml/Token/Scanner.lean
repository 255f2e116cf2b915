import Raml.Yaml.Token.Scalar
import Raml.Yaml.Token.Tag

/-! Cutting a text into tokens.

Indentation opens and closes blocks. What looks like a value may turn out to be a key when a colon
follows; its place in the sequence of tokens is kept until that is decided, and no later token is
given out before.
-/

namespace Raml.Yaml

/-- A place in the sequence of tokens where a key may still turn out to have begun. -/
structure KeyStart where
  /-- Whether nothing but a key can stand here. -/
  required : Bool
  /-- The number of the token. -/
  number : Nat
  mark : Mark
  deriving Inhabited

/-- The state between two tokens. -/
structure Scanner where
  cursor : Cursor
  /-- Tokens that have not been given out yet, first one first. -/
  pending : List Token := []
  /-- How many tokens have been given out. -/
  given : Nat := 0
  /-- The column of the innermost block, and those around it. -/
  indent : Int := -1
  outer : List Int := []
  /-- Whether a key may begin here. -/
  keyAllowed : Bool := true
  /-- One entry for each open flow collection, innermost first, and one for the block context. -/
  keys : List (Option KeyStart) := [none]
  ended : Bool := false

namespace Scanner

def inFlow (s : Scanner) : Bool := s.keys.length > 1

def mark (s : Scanner) : Mark := s.cursor.mark

/-- Adds a token at the end. -/
def push (s : Scanner) (t : Token) : Scanner := { s with pending := s.pending ++ [t] }

/-- Adds a token without text at the cursor. -/
def pushHere (s : Scanner) (kind : TokenKind) : Scanner := s.push ⟨kind, s.mark, s.mark⟩

/-- Adds a token before the one with the given number. -/
def insertAt (s : Scanner) (number : Nat) (t : Token) : Scanner :=
  let k := number - s.given
  { s with pending := s.pending.take k ++ t :: s.pending.drop k }

/-- Adds a token for the next `n` characters and moves past them. -/
def take (s : Scanner) (n : Nat) (kind : TokenKind) : Scanner :=
  let cursor := s.cursor.skipMany n
  { s.push ⟨kind, s.mark, cursor.mark⟩ with cursor }

/-- Gives up on a key that cannot begin there any more: a key stays on one line and is short. -/
def checkKey (mark : Mark) : Option KeyStart → Except Fault (Option KeyStart)
  | none => .ok none
  | some k =>
      if k.mark.line < mark.line || k.mark.index + 1024 < mark.index then
        if k.required then .error (.malformed .expectedColon mark (some (.simpleKey, k.mark)))
        else .ok none
      else .ok (some k)

/-- Gives up on all keys that cannot begin where they might have. -/
def dropStaleKeys (s : Scanner) : Except Fault Scanner := do
  -- the outermost context is looked at first
  let keys ← s.keys.reverse.mapM (checkKey s.mark)
  return { s with keys := keys.reverse }

/-- Decides that no key began at the innermost place kept. -/
def removeKey (s : Scanner) : Except Fault Scanner :=
  match s.keys with
  | some k :: rest =>
      if k.required then .error (.malformed .expectedColon s.mark (some (.simpleKey, k.mark)))
      else .ok { s with keys := none :: rest }
  | _ => .ok s

/-- Keeps the place of the next token, which may turn out to begin a key. -/
def saveKey (s : Scanner) : Except Fault Scanner := do
  if !s.keyAllowed then return s
  let required := !s.inFlow && s.indent == s.mark.column
  let s ← s.removeKey
  let k : KeyStart := ⟨required, s.given + s.pending.length, s.mark⟩
  return { s with keys := some k :: s.keys.drop 1 }

/-- Opens a block if the column is deeper than the innermost one. The token goes to the end, or
before the one with the given number. -/
def openBlock (s : Scanner) (column : Nat) (number : Option Nat) (kind : TokenKind) (mark : Mark)
    : Scanner :=
  if s.inFlow || s.indent ≥ column then s
  else
    let s := { s with outer := s.indent :: s.outer, indent := column }
    match number with
    | none => s.push ⟨kind, mark, mark⟩
    | some n => s.insertAt n ⟨kind, mark, mark⟩

/-- Closes the blocks that are deeper than a column, one for each of the columns around. -/
def closeBlocksFrom (column : Int) : List Int → Scanner → Scanner
  | [], s => s
  | around :: outer, s =>
      if s.indent > column then
        closeBlocksFrom column outer { s.pushHere .blockEnd with indent := around, outer }
      else s

/-- Closes the blocks that are deeper than a column. -/
def closeBlocks (s : Scanner) (column : Int) : Scanner :=
  if s.inFlow then s else closeBlocksFrom column s.outer s

/-- The character that marks the order of bytes; at the start of a line it says nothing. -/
def isByteOrderMark (c : Char) : Bool := c.toNat == 0xFEFF

/-- Moves to the next token, past white space and comments. -/
def skipToToken : Nat → Scanner → Scanner
  | 0, s => s
  | fuel + 1, s =>
      let c := s.cursor
      let c := if c.column == 0 && isByteOrderMark c.peek then c.skip else c
      let tabs := s.inFlow || !s.keyAllowed
      let c := c.skipWhile (fun ch => ch == ' ' || (tabs && ch == '\t'))
      let c := if c.peek == '#' then c.skipWhile (fun ch => !isBreakOrEnd ch) else c
      if isBreak c.peek then
        skipToToken fuel
          { s with cursor := c.skipLine, keyAllowed := if s.inFlow then s.keyAllowed else true }
      else { s with cursor := c }

/-- The end of the text closes everything. -/
def endStream (s : Scanner) : Except Fault Scanner := do
  let mark := s.mark
  let mark := if mark.column = 0 then mark else ⟨mark.index, mark.line + 1, 0⟩
  let s := { s with cursor := { s.cursor with mark } }
  let s ← (s.closeBlocks (-1)).removeKey
  return { s.pushHere .streamEnd with keyAllowed := false, ended := true }

/-- A directive ends what came before. -/
def addDirective (s : Scanner) : Except Fault Scanner := do
  let s ← (s.closeBlocks (-1)).removeKey
  let (t, cursor) ← Token.directive s.cursor
  return { s.push t with cursor, keyAllowed := false }

/-- A mark between documents ends what came before. -/
def addBoundary (s : Scanner) (kind : TokenKind) : Except Fault Scanner := do
  let s ← (s.closeBlocks (-1)).removeKey
  return { s.take 3 kind with keyAllowed := false }

/-- The bracket that opens a flow collection, which may be a key. -/
def openFlow (s : Scanner) (kind : TokenKind) : Except Fault Scanner := do
  let s ← s.saveKey
  return { s.take 1 kind with keys := none :: s.keys, keyAllowed := true }

/-- The bracket that closes a flow collection. -/
def closeFlow (s : Scanner) (kind : TokenKind) : Except Fault Scanner := do
  let s ← s.removeKey
  let keys := if s.inFlow then s.keys.drop 1 else s.keys
  return { s.take 1 kind with keys, keyAllowed := false }

/-- The comma of a flow collection. -/
def addFlowEntry (s : Scanner) : Except Fault Scanner := do
  let s ← s.removeKey
  return { s.take 1 .flowEntry with keyAllowed := true }

/-- The dash of a block sequence. -/
def addBlockEntry (s : Scanner) : Except Fault Scanner := do
  if !s.inFlow && !s.keyAllowed then throw (.malformed .entryNotAllowed s.mark none)
  let s := s.openBlock s.mark.column none .blockSequenceStart s.mark
  let s ← s.removeKey
  return { s.take 1 .blockEntry with keyAllowed := true }

/-- The question mark before a key. -/
def addKey (s : Scanner) : Except Fault Scanner := do
  if !s.inFlow && !s.keyAllowed then throw (.malformed .keyNotAllowed s.mark none)
  let s := s.openBlock s.mark.column none .blockMappingStart s.mark
  let s ← s.removeKey
  return { s.take 1 .key with keyAllowed := !s.inFlow }

/-- The colon before a value. If a key may have begun earlier, it has now. -/
def addValue (s : Scanner) : Except Fault Scanner := do
  match s.keys with
  | some k :: rest =>
      let s := s.insertAt k.number ⟨.key, k.mark, k.mark⟩
      let s := s.openBlock k.mark.column (some k.number) .blockMappingStart k.mark
      return { s.take 1 .value with keys := none :: rest, keyAllowed := false }
  | _ =>
      if !s.inFlow && !s.keyAllowed then throw (.malformed .valueNotAllowed s.mark none)
      let s := s.openBlock s.mark.column none .blockMappingStart s.mark
      return { s.take 1 .value with keyAllowed := !s.inFlow }

/-- A token that may begin a key, read by `read`. -/
def addNodeToken (s : Scanner) (read : Cursor → Except Fault (Token × Cursor))
    : Except Fault Scanner := do
  let s ← s.saveKey
  let (t, cursor) ← read s.cursor
  return { s.push t with cursor, keyAllowed := false }

/-- A block scalar, which is no key. -/
def addBlockScalar (s : Scanner) (literal : Bool) : Except Fault Scanner := do
  let s ← s.removeKey
  let (t, cursor) ← Token.blockScalar literal s.indent s.cursor
  return { s.push t with cursor, keyAllowed := true }

/-- A plain scalar, which may be a key. -/
def addPlainScalar (s : Scanner) : Except Fault Scanner := do
  let s ← s.saveKey
  let (t, ended, cursor) ← Token.plainScalar s.inFlow s.indent s.cursor
  return { s.push t with cursor, keyAllowed := ended }

/-- Whether a plain scalar can begin here. -/
def atPlainScalar (s : Scanner) : Bool :=
  let ch := s.cursor.peek
  let next := s.cursor.peek 1
  !(isBlankOrEnd ch || "-?:,[]\x7b\x7d#&*!|>'\"%@`".toList.contains ch)
    || (ch == '-' && !isBlank next)
    || (!s.inFlow && (ch == '?' || ch == ':') && !isBlankOrEnd next)

/-- Reads the token at the cursor. -/
def addToken (s : Scanner) : Except Fault Scanner := do
  let c := s.cursor
  c.ensure 4
  let ch := c.peek
  let next := c.peek 1
  if isEnd ch then s.endStream
  else if c.column == 0 && ch == '%' then s.addDirective
  else if c.atDocumentMark '-' then s.addBoundary .documentStart
  else if c.atDocumentMark '.' then s.addBoundary .documentEnd
  else if ch == '[' then s.openFlow .flowSequenceStart
  else if ch == '{' then s.openFlow .flowMappingStart
  else if ch == ']' then s.closeFlow .flowSequenceEnd
  else if ch == '}' then s.closeFlow .flowMappingEnd
  else if ch == ',' then s.addFlowEntry
  else if ch == '-' && isBlankOrEnd next then s.addBlockEntry
  else if ch == '?' && (s.inFlow || isBlankOrEnd next) then s.addKey
  else if ch == ':' && (s.inFlow || isBlankOrEnd next) then s.addValue
  else if ch == '*' then s.addNodeToken (Token.anchor true)
  else if ch == '&' then s.addNodeToken (Token.anchor false)
  else if ch == '!' then s.addNodeToken (Token.tag s.inFlow)
  else if ch == '|' && !s.inFlow then s.addBlockScalar true
  else if ch == '>' && !s.inFlow then s.addBlockScalar false
  else if ch == '\'' then s.addNodeToken (Token.quotedScalar true)
  else if ch == '"' then s.addNodeToken (Token.quotedScalar false)
  else if s.atPlainScalar then s.addPlainScalar
  else throw (.malformed .cannotStartToken s.mark (some (.nextToken, s.mark)))

/-- Reads one more token. -/
def advance (s : Scanner) : Except Fault Scanner := do
  let s := skipToToken (s.cursor.rest.length + 1) s
  s.cursor.ensure 1
  let s ← s.dropStaleKeys
  (s.closeBlocks s.mark.column).addToken

/-- Whether a key may turn out to begin at the next token to be given out. -/
def isUndecided (s : Scanner) : Bool :=
  s.keys.any fun
    | some k => k.number == s.given
    | none => false

/-- Reads on until the next token to be given out is decided. -/
def settle : Nat → Scanner → Except Fault Scanner
  | 0, s => .ok s
  | fuel + 1, s => do
      if s.pending.isEmpty then
        if s.ended then return s
        settle fuel (← s.advance)
      else
        let s ← s.dropStaleKeys
        if s.isUndecided then settle fuel (← s.advance) else return s

/-- Gives out tokens as long as there are any. The fault, if any, comes behind them. -/
def run : Nat → Scanner → List Token × Option Fault
  | 0, _ => ([], none)
  | fuel + 1, s =>
      match settle (s.cursor.rest.length + 2) s with
      | .error fault => ([], some fault)
      | .ok s =>
          match s.pending with
          | [] => ([], none)
          | t :: pending =>
              let (ts, fault) := run fuel { s with pending, given := s.given + 1 }
              (t :: ts, fault)

end Scanner

/-- The tokens of a text whose characters are given, with the fault that keeps others from being
read. If the text breaks off, the fault comes behind the tokens before it. -/
def Token.ofChars (chars : List Char) (behind : Option Fault) : List Token × Option Fault :=
  let s : Scanner := { cursor := { rest := chars, behind } }
  Scanner.run (6 * chars.length + 16) (s.pushHere .streamStart)

end Raml.Yaml
