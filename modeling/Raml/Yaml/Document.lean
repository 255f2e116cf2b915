import Raml.Yaml.Event
import Raml.Yaml.Scalar

/-! Reading the one document of a YAML text as a node.

An alias stands for the node that its anchor marks. Mappings must not have a key twice.
-/

namespace Raml.Yaml

/-- The events of a document, with aliases led back to the events that they stand for. -/
inductive Piece where
  | alias (anchor : Nat)
  | scalar (s : ScalarEvent)
  | sequenceStart (tag : Option Bytes)
  | sequenceEnd
  | mappingStart (tag : Option Bytes)
  | mappingEnd
  /-- An empty text has no document at all. -/
  | nothing

/-- The pieces of a document in order; anchors are numbered. -/
structure Pieces where
  pieces : Array (Piece × Mark) := #[]
  /-- The numbers that the names of anchors have at present. -/
  names : List (String × Nat) := []
  /-- The piece that each number marks, last one first. -/
  targets : List (Nat × Nat) := []
  /-- What is wrong behind the pieces. -/
  fault : Option Fault := none

namespace Pieces

def add (p : Pieces) (piece : Piece) (mark : Mark) : Pieces :=
  { p with pieces := p.pieces.push (piece, mark) }

/-- Lets an anchor mark the next piece. Its number is how many names there were before. -/
def mark (p : Pieces) : Option String → Pieces
  | none => p
  | some name =>
      let number := p.names.length
      { p with
        names := (name, number) :: p.names.filter (·.1 != name)
        targets := (number, p.pieces.size) :: p.targets }

/-- The pieces of the first document. The flag says that nothing follows it. -/
def ofEvents (p : Pieces) : List Event → Option Fault → Pieces × Bool
  | [], fault => ({ p with fault }, true)
  | ⟨kind, m⟩ :: es, fault =>
      match kind with
      | .streamStart | .documentStart => ofEvents p es fault
      | .streamEnd => (if p.pieces.isEmpty then p.add .nothing m else p, true)
      | .documentEnd =>
          let more :=
            match es with
            | ⟨.streamEnd, _⟩ :: _ => false
            | [] => fault.isSome
            | _ => true
          (p, !more)
      | .alias name =>
          match p.names.lookup name with
          | some number => ofEvents (p.add (.alias number) m) es fault
          | none => ({ p with fault := some (.unknownAnchor m) }, true)
      | .scalar s => ofEvents ((p.mark s.anchor).add (.scalar s) m) es fault
      | .sequenceStart anchor tag => ofEvents ((p.mark anchor).add (.sequenceStart tag) m) es fault
      | .sequenceEnd => ofEvents (p.add .sequenceEnd m) es fault
      | .mappingStart anchor tag => ofEvents ((p.mark anchor).add (.mappingStart tag) m) es fault
      | .mappingEnd => ofEvents (p.add .mappingEnd m) es fault

end Pieces

/-- The way from the root of a document to a node. -/
inductive NodePath where
  | root
  | item (parent : NodePath) (index : Nat)
  | entry (parent : NodePath) (key : String)
  | unnamed (parent : NodePath)

/-- The text of a way; that of the root is a point. -/
def NodePath.text : NodePath → String
  | .root => "."
  | .item parent index => parent.text ++ s!"[{index}]"
  | .entry .root key => key
  | .entry parent key => parent.text ++ "." ++ key
  | .unnamed .root => "?"
  | .unnamed parent => parent.text ++ ".?"

/-- The tag of a node that is kept, without its exclamation mark. It has to be text. -/
def ownTag? (tag : Option Bytes) : Option String :=
  match tag with
  | some bytes => if isOwnTag bytes then (Utf8.text? bytes).map bareTag else none
  | none => none

/-- What there is to say about a key that a mapping has twice. -/
def keyText : Node → String
  | .null => "with null key"
  | .bool b => s!"with key `{b}`"
  | .num n => "with key " ++ n.text
  | .str s => "with key " ++ Text.quoted s
  | _ => "in YAML map"

/-- A node, the number of the piece behind it, and how many aliases have been followed. -/
structure Read where
  node : Node
  next : Nat
  aliases : Nat

/-- Where a node is to be read: the piece it starts with, the way to it, whether its tag has been
read already, and how many aliases have been followed. -/
structure ReadSite where
  position : Nat
  path : NodePath
  tagRead : Bool := false
  aliases : Nat

namespace Pieces

/-- The piece at a position. Behind the last one stands the fault. -/
def piece (p : Pieces) (position : Nat) : Except Fault (Piece × Mark) :=
  match p.pieces[position]?, p.fault with
  | some piece, _ => .ok piece
  | none, some fault => .error fault
  | none, none => .error .severalDocuments

/-- A misfit at a node. -/
def misfit (path : NodePath) (mark : Mark) (what : Misfit) : Fault := .misfit what path.text mark

abbrev Reader := ReadSite → Except Fault Read

/-- Reads the items of a sequence up to its end. -/
def items (p : Pieces) (read : Reader) (path : NodePath)
    : Nat → Nat → Nat → Nat → Except Fault (List Node × Nat × Nat)
  | 0, _, position, aliases => .ok ([], position, aliases)
  | fuel + 1, index, position, aliases => do
      match (← p.piece position).1 with
      | .sequenceEnd => return ([], position + 1, aliases)
      | _ =>
          let r ← read { position, path := .item path index, aliases }
          let (nodes, next, aliases) ← items p read path fuel (index + 1) r.next r.aliases
          return (r.node :: nodes, next, aliases)

/-- Reads the entries of a mapping up to its end; `done` are those before, last one first. -/
def entries (p : Pieces) (read : Reader) (path : NodePath) (mark : Mark)
    : Nat → List (Node × Node) → Nat → Nat → Except Fault (List (Node × Node) × Nat × Nat)
  | 0, done, position, aliases => .ok (done.reverse, position, aliases)
  | fuel + 1, done, position, aliases => do
      match (← p.piece position).1 with
      | .mappingEnd => return (done.reverse, position + 1, aliases)
      | first =>
          let key ← read { position, path, aliases }
          if let some earlier := done.find? fun entry => entry.1.same key.node then
            throw (misfit path mark (.duplicateKey (keyText earlier.1)))
          let inner : NodePath :=
            match first with
            | .scalar s => .entry path s.text
            | _ => .unnamed path
          let value ← read { position := key.next, path := inner, aliases := key.aliases }
          entries p read path mark fuel ((key.node, value.node) :: done) value.next value.aliases

/-- Reads the content of a node whose collections are read by `inner`; `none` stands for a nesting
that is too deep. -/
def content (p : Pieces) (inner : Option Reader) (site : ReadSite) (piece : Piece) (mark : Mark)
    : Except Fault Read := do
  let next := site.position + 1
  match piece with
  | .scalar s =>
      match scalarNode s.text s.plain (if site.tagRead then none else s.tag) with
      | .ok node => return ⟨node, next, site.aliases⟩
      | .error what => throw (misfit site.path mark what)
  | .sequenceStart _ =>
      match inner with
      | none => throw (.tooDeep mark)
      | some read =>
          let (nodes, next, aliases) ←
            p.items read site.path (p.pieces.size + 1) 0 next site.aliases
          return ⟨.seq nodes, next, aliases⟩
  | .mappingStart _ =>
      match inner with
      | none => throw (.tooDeep mark)
      | some read =>
          let (entries, next, aliases) ←
            p.entries read site.path mark (p.pieces.size + 1) [] next site.aliases
          return ⟨.map entries, next, aliases⟩
  | _ => return ⟨.null, next, site.aliases⟩

/-- The tag of a piece. -/
def tagOf : Piece → Option Bytes
  | .scalar s => s.tag
  | .sequenceStart tag | .mappingStart tag => tag
  | _ => none

/-- Reads a node that is no alias. -/
def tagged (p : Pieces) (inner : Option Reader) (site : ReadSite) (piece : Piece) (mark : Mark)
    : Except Fault Read := do
  match if site.tagRead then none else ownTag? (tagOf piece) with
  | some tag =>
      let r ← p.content inner { site with tagRead := true } piece mark
      return { r with node := .tagged tag r.node }
  | none => p.content inner site piece mark

/-- Reads a node whose collections are nested no deeper than `depth`. -/
def read (p : Pieces) : Nat → Reader
  | depth, site => do
      let inner : Option Reader :=
        match depth with
        | 0 => none
        | depth + 1 => some (p.read depth)
      let (piece, mark) ← p.piece site.position
      match piece with
      | .alias number =>
          let aliases := site.aliases + 1
          if aliases > p.pieces.size * 100 then throw .tooManyAliases
          let position := (p.targets.lookup number).getD site.position
          let (piece, mark) ← p.piece position
          let r ← p.tagged inner { position, path := site.path, aliases } piece mark
          return { r with next := site.position + 1 }
      | _ => p.tagged inner site piece mark

end Pieces

/-- How deep collections may be nested. -/
def depthLimit : Nat := 128

/-- Reads a text that holds one document. -/
def read (bytes : Bytes) : Except Fault Node := do
  let (chars, unread) := chars bytes
  let (tokens, fault) := Token.ofChars chars unread
  let (events, fault) := Event.ofTokens tokens fault
  let (p, alone) := Pieces.ofEvents {} events fault
  let r ← p.read depthLimit { position := 0, path := .root, aliases := 0 }
  match p.fault with
  | some fault => throw fault
  | none => if alone then return r.node else throw .severalDocuments

end Raml.Yaml
