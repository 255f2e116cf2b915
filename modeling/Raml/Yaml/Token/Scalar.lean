import Raml.Yaml.Cursor
import Raml.Yaml.Token

/-! Reading the text of scalars: in quotes, in blocks and plain.

Line breaks inside a scalar are folded: one break becomes a space, of several the first one is
dropped.
-/

namespace Raml.Yaml.Token

/-- White space met between two stretches of text. `blanks` counts until the first break. -/
structure Gap where
  blanks : List Char := []
  /-- The first break, once there was one. -/
  first : Option (List Char) := none
  breaks : List Char := []

/-- What a gap contributes to the text. -/
def Gap.fold (g : Gap) : List Char :=
  match g.first with
  | none => g.blanks
  | some ['\n'] => if g.breaks.isEmpty then [' '] else g.breaks
  | some first => first ++ g.breaks

/-- Adds a break to a gap. -/
def Gap.addBreak (g : Gap) (text : List Char) : Gap :=
  match g.first with
  | none => { g with blanks := [], first := some text }
  | some _ => { g with breaks := g.breaks ++ text }

/-- Reads the white space between two stretches of quoted text. -/
def quotedGap : Nat → Gap → Cursor → Gap × Cursor
  | 0, g, c => (g, c)
  | fuel + 1, g, c =>
      if isBlank c.peek then
        let g := if g.first.isNone then { g with blanks := g.blanks ++ [c.peek] } else g
        quotedGap fuel g c.skip
      else if isBreak c.peek then
        let (text, c) := c.lineBreak
        quotedGap fuel (g.addBreak text) c
      else (g, c)

/-- What a letter behind a backslash stands for: a character, or so many hexadecimal digits. -/
def escapeMeaning? (c : Char) : Option (Char ⊕ Nat) :=
  match c with
  | '0' => some (.inl (Char.ofNat 0))
  | 'a' => some (.inl (Char.ofNat 7))
  | 'b' => some (.inl (Char.ofNat 8))
  | 't' | '\t' => some (.inl '\t')
  | 'n' => some (.inl '\n')
  | 'v' => some (.inl (Char.ofNat 11))
  | 'f' => some (.inl (Char.ofNat 12))
  | 'r' => some (.inl '\r')
  | 'e' => some (.inl (Char.ofNat 27))
  | ' ' => some (.inl ' ')
  | '"' => some (.inl '"')
  | '/' => some (.inl '/')
  | '\\' => some (.inl '\\')
  | 'N' => some (.inl (Char.ofNat 0x85))
  | '_' => some (.inl (Char.ofNat 0xA0))
  | 'L' => some (.inl (Char.ofNat 0x2028))
  | 'P' => some (.inl (Char.ofNat 0x2029))
  | 'x' => some (.inr 2)
  | 'u' => some (.inr 4)
  | 'U' => some (.inr 8)
  | _ => none

/-- The number that the next `n` hexadecimal digits spell. -/
def hexNumber (c : Cursor) : Nat → Option Nat
  | 0 => some 0
  | n + 1 => do
      let high ← hexNumber c n
      let low ← hexValue? (c.peek n)
      some (high * 16 + low)

/-- Reads an escape, from its backslash on. -/
def escapeChar (start : Mark) (c : Cursor) : Except Fault (Char × Cursor) :=
  match escapeMeaning? (c.peek 1) with
  | none => c.fail .quotedScalarText start .unknownEscape
  | some (.inl ch) => .ok (ch, c.skipMany 2)
  | some (.inr width) => do
      let c := c.skipMany 2
      c.ensure width
      match hexNumber c width with
      | none => c.fail .quotedScalarText start .expectedHexDigit
      | some n =>
          if (0xD800 ≤ n && n ≤ 0xDFFF) || 0x10FFFF < n then
            c.fail .quotedScalarText start .invalidEscapedCharacter
          else .ok (Char.ofNat n, c.skipMany width)

/-- Reads a stretch of quoted text without white space. The flag says that it ended with an escaped
line break. -/
def quotedRun (single : Bool) (start : Mark)
    : Nat → List Char → Cursor → Except Fault (List Char × Bool × Cursor)
  | 0, done, c => .ok (done, false, c)
  | fuel + 1, done, c => do
      c.ensure 2
      let ch := c.peek
      if isBlankOrEnd ch then return (done, false, c)
      else if single then
        if ch == '\'' then
          if c.peek 1 == '\'' then quotedRun single start fuel ('\'' :: done) (c.skipMany 2)
          else return (done, false, c)
        else quotedRun single start fuel (ch :: done) c.skip
      else if ch == '"' then return (done, false, c)
      else if ch == '\\' && isBreak (c.peek 1) then
        c.ensure 3
        return (done, true, c.skip.skipLine)
      else if ch == '\\' then
        let (ch, c) ← escapeChar start c
        quotedRun single start fuel (ch :: done) c
      else quotedRun single start fuel (ch :: done) c.skip

/-- Reads the rest of a quoted scalar; the text so far is `done`, last character first. -/
def quotedRest (single : Bool) (start : Mark)
    : Nat → List Char → Cursor → Except Fault (List Char × Cursor)
  | 0, done, c => .ok (done, c)
  | fuel + 1, done, c => do
      c.ensure 4
      if c.atDocumentBoundary then c.fail .quotedScalar start .documentInScalar
      else if isEnd c.peek then c.fail .quotedScalar start .endInScalar
      else
        let (done, escapedBreak, c) ← quotedRun single start (c.rest.length + 1) done c
        c.ensure 1
        if c.peek == (if single then '\'' else '"') then return (done, c.skip)
        else
          let gap : Gap := if escapedBreak then { first := some [] } else {}
          let (gap, c) := quotedGap (c.rest.length + 1) gap c
          quotedRest single start fuel (gap.fold.reverse ++ done) c

/-- Reads a scalar in quotes. -/
def quotedScalar (single : Bool) (c : Cursor) : Except Fault (Token × Cursor) := do
  let start := c.mark
  let (text, after) ← quotedRest single start (c.rest.length + 1) [] c.skip
  return (⟨.scalar (String.ofList text.reverse) .quoted, start, after.mark⟩, after)

/-- Reads the white space between two stretches of plain text. Tabs must not stand before the
indentation `indent` of a new line. -/
def plainGap (start : Mark) (indent : Int) : Nat → Gap → Cursor → Except Fault (Gap × Cursor)
  | 0, g, c => .ok (g, c)
  | fuel + 1, g, c => do
      c.ensure 1
      if isBlank c.peek then
        if g.first.isSome && (c.column : Int) < indent && c.peek == '\t' then
          c.fail .plainScalar start .tabBreaksIndentation
        else
          let g := if g.first.isNone then { g with blanks := g.blanks ++ [c.peek] } else g
          plainGap start indent fuel g c.skip
      else if isBreak c.peek then
        let (text, c) := c.lineBreak
        plainGap start indent fuel (g.addBreak text) c
      else return (g, c)

/-- Characters that set off the parts of flow collections. -/
def isFlowIndicator (c : Char) : Bool :=
  c == ',' || c == '[' || c == ']' || c == '{' || c == '}'

/-- Reads a stretch of plain text without white space. -/
def plainRun (start : Mark) (inFlow : Bool)
    : Nat → List Char → Cursor → Except Fault (List Char × Cursor)
  | 0, done, c => .ok (done, c)
  | fuel + 1, done, c => do
      c.ensure 2
      let ch := c.peek
      if isBlankOrEnd ch then return (done, c)
      else if inFlow && ch == ':' && (isFlowIndicator (c.peek 1) || c.peek 1 == '?') then
        c.fail .plainScalar start .unexpectedColon
      else if (ch == ':' && isBlankOrEnd (c.peek 1)) || (inFlow && isFlowIndicator ch) then
        return (done, c)
      else plainRun start inFlow fuel (ch :: done) c.skip

/-- What has been read of a plain scalar: its text, last character first, the place behind it, and
the white space behind that. -/
structure Plain where
  text : List Char
  stop : Mark
  gap : Gap := {}

/-- Reads the rest of a plain scalar. -/
def plainRest (start : Mark) (inFlow : Bool) (indent : Int)
    : Nat → Plain → Cursor → Except Fault (Plain × Cursor)
  | 0, p, c => .ok (p, c)
  | fuel + 1, p, c => do
      c.ensure 4
      if c.atDocumentBoundary || c.peek == '#' then return (p, c)
      else
        let (run, after) ← plainRun start inFlow (c.rest.length + 1) [] c
        let p : Plain :=
          if run.isEmpty then p
          else ⟨run ++ p.gap.fold.reverse ++ p.text, after.mark, {}⟩
        if !(isBlank after.peek || isBreak after.peek) then return (p, after)
        else
          let (gap, c) ← plainGap start indent (after.rest.length + 1) p.gap after
          let p := { p with gap }
          if !inFlow && (c.column : Int) < indent then return (p, c)
          else plainRest start inFlow indent fuel p c

/-- Reads a plain scalar; `indent` is the indentation of the block it stands in. The flag says that
a line ended behind it. -/
def plainScalar (inFlow : Bool) (indent : Int) (c : Cursor)
    : Except Fault (Token × Bool × Cursor) := do
  let start := c.mark
  let (p, after) ← plainRest start inFlow (indent + 1) (c.rest.length + 1) ⟨[], start, {}⟩ c
  return (⟨.scalar (String.ofList p.text.reverse) .plain, start, p.stop⟩, p.gap.first.isSome, after)

/-- How the line breaks at the end of a block scalar are treated. -/
inductive Chomping where
  | strip
  | clip
  | keep
  deriving DecidableEq

/-- The chomping mark, if there is one. -/
def chomping? (c : Cursor) : Option Chomping :=
  if c.peek == '+' then some .keep else if c.peek == '-' then some .strip else none

/-- The indentation mark, if there is one. -/
def increment? (start : Mark) (c : Cursor) : Except Fault (Option Nat) :=
  if c.peek.isDigit then
    if c.peek == '0' then c.fail .blockScalar start .zeroIndentation
    else .ok (some (c.peek.toNat - 48))
  else .ok none

/-- Reads the marks behind the character that opens a block scalar, in either order. -/
def blockHeader (start : Mark) (c : Cursor) : Except Fault (Chomping × Option Nat × Cursor) := do
  c.ensure 1
  match chomping? c with
  | some chomping =>
      let c := c.skip
      c.ensure 1
      match ← increment? start c with
      | some n => return (chomping, some n, c.skip)
      | none => return (chomping, none, c)
  | none =>
      match ← increment? start c with
      | some n =>
          let c := c.skip
          match chomping? c with
          | some chomping => return (chomping, some n, c.skip)
          | none => return (.clip, some n, c)
      | none => return (.clip, none, c)

/-- Moves past blanks and a comment to the end of the line. -/
def skipComment (c : Cursor) : Cursor :=
  let c := c.skipWhile isBlank
  if c.peek == '#' then c.skipWhile (fun ch => !isBreakOrEnd ch) else c

/-- Empty lines met before a line of a block scalar. -/
structure Margin where
  breaks : List Char := []
  /-- The deepest indentation met. -/
  deepest : Nat := 0
  stop : Mark

/-- Reads empty lines and the indentation of the next line. An `indent` of zero is not known yet. -/
def blockMargin (start : Mark) (indent : Nat) : Nat → Margin → Cursor → Except Fault (Margin × Cursor)
  | 0, m, c => .ok (m, c)
  | fuel + 1, m, c => do
      let c := skipIndent (c.rest.length + 1) c
      c.ensure 1
      let m := { m with deepest := max m.deepest c.column }
      if (indent = 0 ∨ c.column < indent) ∧ c.peek = '\t' then
        c.fail .blockScalar start .tabForIndentation
      else if !isBreak c.peek then return (m, c)
      else
        let (text, c) := c.lineBreak
        blockMargin start indent fuel { m with breaks := m.breaks ++ text, stop := c.mark } c
where
  skipIndent : Nat → Cursor → Cursor
  | 0, c => c
  | fuel + 1, c =>
      if (indent = 0 ∨ c.column < indent) ∧ c.peek = ' ' then skipIndent fuel c.skip else c

/-- What has been read of a block scalar: its text, last character first, the break behind its last
line and the empty lines behind that. -/
structure Block where
  text : List Char := []
  lead : List Char := []
  leadingBlank : Bool := false
  margin : Margin

/-- Reads the lines of a block scalar. -/
def blockLines (start : Mark) (literal : Bool) (indent : Nat)
    : Nat → Block → Cursor → Except Fault (Block × Cursor)
  | 0, b, c => .ok (b, c)
  | fuel + 1, b, c => do
      if c.column ≠ indent ∨ isEnd c.peek then return (b, c)
      else
        let blank := isBlank c.peek
        let joint :=
          if !literal && b.lead == ['\n'] && !b.leadingBlank && !blank then
            if b.margin.breaks.isEmpty then [' '] else []
          else b.lead
        let (line, c) := c.span (fun ch => !isBreakOrEnd ch)
        let (lead, c) := c.lineBreak
        let (margin, c) ←
          blockMargin start indent (c.rest.length + 1) { stop := c.mark } c
        let text := line.reverse ++ (joint ++ b.margin.breaks).reverse ++ b.text
        blockLines start literal indent fuel ⟨text, lead, blank, margin⟩ c

/-- The indentation of a block scalar: the one of its first line, but deeper than that of the block
around it. -/
def blockIndent (given : Option Nat) (outer : Int) (margin : Margin) : Nat :=
  match given with
  | some n => if outer ≥ 0 then outer.toNat + n else n
  | none => max (max margin.deepest (outer + 1).toNat) 1

/-- Reads a block scalar; `outer` is the indentation of the block it stands in. -/
def blockScalar (literal : Bool) (outer : Int) (c : Cursor) : Except Fault (Token × Cursor) := do
  let start := c.mark
  let (chomping, given, c) ← blockHeader start c.skip
  let c := skipComment c
  c.ensure 1
  if !isBreakOrEnd c.peek then c.fail .blockScalar start .expectedCommentOrBreak
  else
    let c := c.skipLine
    let known := if given.isSome then blockIndent given outer { stop := c.mark } else 0
    let (margin, c) ← blockMargin start known (c.rest.length + 1) { stop := c.mark } c
    let indent := if given.isSome then known else blockIndent none outer margin
    let (b, c) ← blockLines start literal indent (c.rest.length + 1) { margin } c
    let tail :=
      match chomping with
      | .strip => []
      | .clip => b.lead
      | .keep => b.lead ++ b.margin.breaks
    let text := b.text.reverse ++ tail
    return (⟨.scalar (String.ofList text) .block, start, b.margin.stop⟩, c)

end Raml.Yaml.Token
