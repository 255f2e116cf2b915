import Raml.Yaml.Cursor
import Raml.Yaml.Token

/-! Reading names: directives, anchors, aliases and tags. -/

namespace Raml.Yaml.Token

/-- Characters of tags besides those of names; inside angle brackets and directives three more are
allowed. -/
def isTagChar (wide : Bool) (c : Char) : Bool :=
  isAlpha c || ";/?:@&=+$.%!~*'()".toList.contains c || (wide && ",[]".toList.contains c)

/-- Whose text is being read. -/
structure TagSite where
  directive : Bool
  start : Mark

def TagSite.text (site : TagSite) : Activity :=
  if site.directive then .tagDirectiveText else .tagText

/-- The byte of an escape of three characters. -/
def uriOctet? (c : Cursor) : Option Nat := do
  let high ← hexValue? (c.peek 1)
  let low ← hexValue? (c.peek 2)
  if c.peek == '%' then some (high * 16 + low) else none

/-- Reads the bytes of one escaped character; `left` of them are still to come. -/
def uriTrail (site : TagSite) : Nat → List UInt8 → Cursor → Except Fault (List UInt8 × Cursor)
  | 0, done, c => .ok (done, c)
  | left + 1, done, c => do
      c.ensure 3
      match uriOctet? c with
      | none => c.fail site.text site.start .expectedUriOctet
      | some n =>
          if n / 64 = 2 then uriTrail site left (n.toUInt8 :: done) (c.skipMany 3)
          else c.fail site.text site.start .invalidUriTrailing

/-- Reads the bytes of one escaped character, last one first. -/
def uriEscape (site : TagSite) (c : Cursor) : Except Fault (List UInt8 × Cursor) := do
  c.ensure 3
  match uriOctet? c with
  | none => c.fail site.text site.start .expectedUriOctet
  | some n =>
      let width := octetWidth n.toUInt8
      if width = 0 then c.fail site.text site.start .invalidUriLeading
      else uriTrail site (width - 1) [n.toUInt8] (c.skipMany 3)

/-- Reads the bytes of a tag, last one first. -/
def tagBytes (site : TagSite) (wide : Bool)
    : Nat → List UInt8 → Cursor → Except Fault (List UInt8 × Cursor)
  | 0, done, c => .ok (done, c)
  | fuel + 1, done, c => do
      c.ensure 1
      if !isTagChar wide c.peek then return (done, c)
      else if c.peek == '%' then
        let (bytes, c) ← uriEscape site c
        tagBytes site wide fuel (bytes ++ done) c
      else tagBytes site wide fuel (c.peek.toNat.toUInt8 :: done) c.skip

/-- Reads the text of a tag that goes on from `head`, whose first character does not count. Nothing
counts from a byte of zero on. -/
def tagText (site : TagSite) (wide : Bool) (head : String) (c : Cursor)
    : Except Fault (Bytes × Cursor) := do
  let (done, after) ← tagBytes site wide (c.rest.length + 1) [] c
  if head.isEmpty && done.isEmpty then after.fail site.text site.start .expectedTagText
  else return (((Bytes.ofText head).drop 1 ++ done.reverse).takeWhile (· ≠ 0), after)

/-- Reads the handle of a tag: a name between exclamation marks, of which the second may lack
outside directives. -/
def tagHandle (site : TagSite) (c : Cursor) : Except Fault (String × Cursor) := do
  c.ensure 1
  if c.peek != '!' then
    c.fail (if site.directive then .tagDirectiveHandle else .tag) site.start .expectedBang
  else
    let (name, c) := c.skip.span isAlpha
    c.ensure 1
    if c.peek == '!' then return (String.ofList ('!' :: name ++ ['!']), c.skip)
    else if site.directive && !name.isEmpty then
      c.fail .tagDirectiveBang site.start .expectedBang
    else return (String.ofList ('!' :: name), c)

/-- Reads a tag as it is written: handle and suffix. -/
def tagParts (start : Mark) (c : Cursor) : Except Fault (String × Bytes × Cursor) := do
  let site : TagSite := ⟨false, start⟩
  c.ensure 2
  if c.peek 1 == '<' then
    let (suffix, c) ← tagText site true "" (c.skipMany 2)
    if c.peek != '>' then c.fail .tag start .expectedTagEnd else return ("", suffix, c.skip)
  else
    let (handle, c) ← tagHandle site c
    if handle.length > 1 && handle.endsWith "!" then
      let (suffix, c) ← tagText site false "" c
      return (handle, suffix, c)
    else
      let (suffix, c) ← tagText site false handle c
      if suffix.isEmpty then return ("", Bytes.ofText "!", c) else return ("!", suffix, c)

/-- Reads a tag. -/
def tag (inFlow : Bool) (c : Cursor) : Except Fault (Token × Cursor) := do
  let start := c.mark
  let (handle, suffix, c) ← tagParts start c
  c.ensure 1
  if !isBlankOrEnd c.peek && !(inFlow && c.peek == ',') then
    c.fail .tag start .expectedBlankOrBreak
  else return (⟨.tag handle suffix, start, c.mark⟩, c)

/-- Reads an anchor, or an alias. -/
def anchor (isAlias : Bool) (c : Cursor) : Except Fault (Token × Cursor) := do
  let start := c.mark
  let (name, c) := c.skip.span isAlpha
  c.ensure 1
  let ends := isBlankOrEnd c.peek || "?:,]\x7d%@`".toList.contains c.peek
  if name.isEmpty || !ends then
    c.fail (if isAlias then .alias else .anchor) start .expectedAnchorName
  else
    let name := String.ofList name
    return (⟨if isAlias then .alias name else .anchor name, start, c.mark⟩, c)

/-- Reads a number of a version. -/
def versionNumber (start : Mark) (c : Cursor) : Except Fault (Nat × Cursor) := do
  let (ds, after) := c.span Char.isDigit
  if ds.length > 9 then (c.skipMany 9).fail .versionDirective start .longVersion
  after.ensure 1
  if ds.isEmpty then c.fail .versionDirective start .expectedVersion
  else return (ds.foldl (fun n d => 10 * n + (d.toNat - 48)) 0, after)

/-- Reads the version of a directive. -/
def version (start : Mark) (c : Cursor) : Except Fault (TokenKind × Cursor) := do
  let c := c.skipWhile isBlank
  c.ensure 1
  let (major, c) ← versionNumber start c
  if c.peek != '.' then c.fail .versionDirective start .expectedDigitOrPoint
  else
    let (minor, c) ← versionNumber start c.skip
    return (.version major minor, c)

/-- Reads the handle and the text of a tag directive. -/
def tagDirective (start : Mark) (c : Cursor) : Except Fault (TokenKind × Cursor) := do
  let site : TagSite := ⟨true, start⟩
  let c := c.skipWhile isBlank
  let (handle, c) ← tagHandle site c
  c.ensure 1
  if !isBlank c.peek then c.fail .tagDirective start .expectedBlank
  else
    let (lead, c) ← tagText site true "" (c.skipWhile isBlank)
    c.ensure 1
    if !isBlankOrEnd c.peek then c.fail .tagDirective start .expectedBlankOrBreak
    else return (.tagDirective handle lead, c)

/-- Reads a directive, to the end of its line. -/
def directive (c : Cursor) : Except Fault (Token × Cursor) := do
  let start := c.mark
  let (name, after) := c.skip.span isAlpha
  after.ensure 1
  if name.isEmpty then after.fail .directive start .expectedDirectiveName
  else if !isBlankOrEnd after.peek then after.fail .directive start .directiveNameCharacter
  else
    let (kind, c) ←
      match String.ofList name with
      | "YAML" => version start after
      | "TAG" => tagDirective start after
      | _ => after.fail .directive start .unknownDirective
    let stop := c.mark
    let c := c.skipWhile isBlank
    let c := if c.peek == '#' then c.skipWhile (fun ch => !isBreakOrEnd ch) else c
    c.ensure 1
    if !isBreakOrEnd c.peek then c.fail .directive start .expectedCommentOrBreak
    c.ensure 2
    return (⟨kind, start, stop⟩, c.skipLine)

end Raml.Yaml.Token
