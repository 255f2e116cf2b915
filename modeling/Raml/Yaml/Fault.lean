import Raml.Text.Escaped

/-! What can be wrong with YAML text, where, and how that is put into words. -/

namespace Raml.Yaml

/-- A place in a text, all counted from zero. -/
structure Mark where
  index : Nat := 0
  line : Nat := 0
  column : Nat := 0
  deriving DecidableEq, Inhabited

/-- The start of a text is no place worth naming. -/
def Mark.isStart (m : Mark) : Bool := m.line == 0 && m.column == 0

/-- A place as people count. -/
def Mark.text (m : Mark) : String := s!"line {m.line + 1} column {m.column + 1}"

/-- A rule of the language that a text breaks. -/
inductive Problem where
  | invalidLeadingOctet
  | invalidTrailingOctet
  | incompleteOctets
  | invalidOctetLength
  | invalidCharacter
  | controlCharacter
  | cannotStartToken
  | expectedColon
  | entryNotAllowed
  | keyNotAllowed
  | valueNotAllowed
  | unknownDirective
  | expectedDirectiveName
  | directiveNameCharacter
  | expectedCommentOrBreak
  | expectedDigitOrPoint
  | expectedVersion
  | longVersion
  | expectedBlank
  | expectedBlankOrBreak
  | expectedAnchorName
  | expectedBang
  | expectedTagText
  | expectedTagEnd
  | expectedUriOctet
  | invalidUriLeading
  | invalidUriTrailing
  | zeroIndentation
  | tabForIndentation
  | tabBreaksIndentation
  | documentInScalar
  | endInScalar
  | unknownEscape
  | expectedHexDigit
  | invalidEscapedCharacter
  | unexpectedColon
  | expectedDocumentStart
  | duplicateVersion
  | incompatibleVersion
  | duplicateTagDirective
  | undefinedTagHandle
  | expectedNode
  | expectedDash
  | expectedKey
  | expectedCommaOrBracket
  | expectedCommaOrBrace
  deriving DecidableEq, Inhabited

/-- The wording of a problem. -/
def Problem.message : Problem → String
  | .invalidLeadingOctet => "invalid leading UTF-8 octet"
  | .invalidTrailingOctet => "invalid trailing UTF-8 octet"
  | .incompleteOctets => "incomplete UTF-8 octet sequence"
  | .invalidOctetLength => "invalid length of a UTF-8 sequence"
  | .invalidCharacter => "invalid Unicode character"
  | .controlCharacter => "control characters are not allowed"
  | .cannotStartToken => "found character that cannot start any token"
  | .expectedColon => "could not find expected ':'"
  | .entryNotAllowed => "block sequence entries are not allowed in this context"
  | .keyNotAllowed => "mapping keys are not allowed in this context"
  | .valueNotAllowed => "mapping values are not allowed in this context"
  | .unknownDirective => "found unknown directive name"
  | .expectedDirectiveName => "could not find expected directive name"
  | .directiveNameCharacter => "found unexpected non-alphabetical character"
  | .expectedCommentOrBreak => "did not find expected comment or line break"
  | .expectedDigitOrPoint => "did not find expected digit or '.' character"
  | .expectedVersion => "did not find expected version number"
  | .longVersion => "found extremely long version number"
  | .expectedBlank => "did not find expected whitespace"
  | .expectedBlankOrBreak => "did not find expected whitespace or line break"
  | .expectedAnchorName => "did not find expected alphabetic or numeric character"
  | .expectedBang => "did not find expected '!'"
  | .expectedTagText => "did not find expected tag URI"
  | .expectedTagEnd => "did not find the expected '>'"
  | .expectedUriOctet => "did not find URI escaped octet"
  | .invalidUriLeading => "found an incorrect leading UTF-8 octet"
  | .invalidUriTrailing => "found an incorrect trailing UTF-8 octet"
  | .zeroIndentation => "found an indentation indicator equal to 0"
  | .tabForIndentation => "found a tab character where an indentation space is expected"
  | .tabBreaksIndentation => "found a tab character that violates indentation"
  | .documentInScalar => "found unexpected document indicator"
  | .endInScalar => "found unexpected end of stream"
  | .unknownEscape => "found unknown escape character"
  | .expectedHexDigit => "did not find expected hexdecimal number"
  | .invalidEscapedCharacter => "found invalid Unicode character escape code"
  | .unexpectedColon => "found unexpected ':'"
  | .expectedDocumentStart => "did not find expected <document start>"
  | .duplicateVersion => "found duplicate %YAML directive"
  | .incompatibleVersion => "found incompatible YAML document"
  | .duplicateTagDirective => "found duplicate %TAG directive"
  | .undefinedTagHandle => "found undefined tag handle"
  | .expectedNode => "did not find expected node content"
  | .expectedDash => "did not find expected '-' indicator"
  | .expectedKey => "did not find expected key"
  | .expectedCommaOrBracket => "did not find expected ',' or ']'"
  | .expectedCommaOrBrace => "did not find expected ',' or '\x7d'"

/-- What was being read when a problem was met. -/
inductive Activity where
  | nextToken
  | simpleKey
  | directive
  | versionDirective
  | tagDirective
  | tagDirectiveHandle
  | tagDirectiveBang
  | tagDirectiveText
  | anchor
  | alias
  | tag
  | tagText
  | blockScalar
  | quotedScalar
  | quotedScalarText
  | plainScalar
  | node
  | blockNode
  | flowNode
  | blockCollection
  | blockMapping
  | flowSequence
  | flowMapping
  deriving DecidableEq, Inhabited

/-- The wording of an activity. -/
def Activity.message : Activity → String
  | .nextToken => "while scanning for the next token"
  | .simpleKey => "while scanning a simple key"
  | .directive => "while scanning a directive"
  | .versionDirective => "while scanning a %YAML directive"
  | .tagDirective => "while scanning a %TAG directive"
  | .tagDirectiveHandle => "while scanning a tag directive"
  | .tagDirectiveBang => "while parsing a tag directive"
  | .tagDirectiveText => "while parsing a %TAG directive"
  | .anchor => "while scanning an anchor"
  | .alias => "while scanning an alias"
  | .tag => "while scanning a tag"
  | .tagText => "while parsing a tag"
  | .blockScalar => "while scanning a block scalar"
  | .quotedScalar => "while scanning a quoted scalar"
  | .quotedScalarText => "while parsing a quoted scalar"
  | .plainScalar => "while scanning a plain scalar"
  | .node => "while parsing a node"
  | .blockNode => "while parsing a block node"
  | .flowNode => "while parsing a flow node"
  | .blockCollection => "while parsing a block collection"
  | .blockMapping => "while parsing a block mapping"
  | .flowSequence => "while parsing a flow sequence"
  | .flowMapping => "while parsing a flow mapping"

/-- A node that does not hold what it must hold. -/
inductive Misfit where
  /-- A mapping has a key twice; what there is to say about the key. -/
  | duplicateKey (key : String)
  /-- A whole number is too large for any value; `bits` is the kind of word that would hold it. -/
  | hugeInteger (n : Int) (bits : String)
  /-- A tag asks for a kind of scalar that the text is not. -/
  | wrongScalar (text expected : String)

/-- The wording of a misfit. -/
def Misfit.message : Misfit → String
  | .duplicateKey key => "duplicate entry " ++ key
  | .hugeInteger n bits => s!"invalid type: integer `{n}` as " ++ bits ++ ", expected any YAML value"
  | .wrongScalar text expected =>
      "invalid value: string " ++ Text.quoted text ++ ", expected " ++ expected

/-- Why a text is not one readable document. -/
inductive Fault where
  /-- The bytes from `offset` on are no text. -/
  | unreadable (problem : Problem) (offset : Nat)
  | malformed (problem : Problem) (mark : Mark) (context : Option (Activity × Mark))
  | unknownAnchor (mark : Mark)
  | tooDeep (mark : Mark)
  | tooManyAliases
  | severalDocuments
  /-- The node at `path` does not fit. The path of the root, a lone point, is not told. -/
  | misfit (what : Misfit) (path : String) (mark : Mark)

/-- A place behind a message, unless it is the start of the text. -/
def atMark (m : Mark) : String := if m.isStart then "" else " at " ++ m.text

/-- The wording of a fault. -/
def Fault.message : Fault → String
  | .unreadable problem offset =>
      problem.message ++ if offset = 0 then "" else s!" at position {offset}"
  | .malformed problem mark context =>
      problem.message ++ atMark mark ++
        match context with
        | none => ""
        | some (activity, start) =>
            ", " ++ activity.message ++
              if start.line = mark.line ∧ start.column = mark.column then "" else atMark start
  | .unknownAnchor mark => "unknown anchor" ++ atMark mark
  | .tooDeep mark => "recursion limit exceeded" ++ atMark mark
  | .tooManyAliases => "repetition limit exceeded"
  | .severalDocuments =>
      "deserializing from YAML containing more than one document is not supported"
  | .misfit what path mark =>
      (if path = "." then "" else path ++ ": ") ++ what.message ++ atMark mark

/-- The line of a fault, counted from one; zero if it is at no one line. -/
def Fault.line : Fault → Nat
  | .unreadable _ _ => 1
  | .malformed _ mark _ | .unknownAnchor mark | .tooDeep mark | .misfit _ _ mark => mark.line + 1
  | .tooManyAliases | .severalDocuments => 0

end Raml.Yaml
