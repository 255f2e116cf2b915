import Raml.Form.Read
import Raml.Form.Write
import Raml.Json.Printer
import Raml.Json.Reader
import Raml.Parse
import Raml.Pass.Restore
import Raml.Sha512
import Raml.Source.Tree

/-! A cache of parsed documents: one file for each path that a document was read from.

An entry counts only for the very bytes that it was made from. An entry that cannot be read is as
good as none, and one that cannot be written is not missed.
-/

namespace Raml

namespace Cache

/-- What an entry is found by: digests of a path and of the bytes read from it. -/
structure Key where
  path : Bytes
  content : Bytes
  deriving DecidableEq

def Key.of (path : Path) (content : Bytes) : Key :=
  { path := Sha512.digest (Bytes.ofText path.text), content := Sha512.digest content }

/-- The name of the file that holds the entry of a key. -/
def Key.fileName (k : Key) : String := (Bytes.hex (k.path.take 16)) ++ ".json"

/-- An entry. -/
structure Entry where
  contentHash : String
  /-- When it was written, in seconds. -/
  cachedAt : Int
  document : Document

def Entry.toJson (e : Entry) : Json :=
  .obj [("contentHash", .str e.contentHash), ("cachedAt", .int e.cachedAt),
    ("document", e.document.toJson)]

/-- Reads an entry, of which nothing may be missing. -/
def Entry.read (j : Json) : Option Entry := do
  let f ← Form.fieldsOrItems? Form.Part.entry.fieldNames j
  some {
    contentHash := ← Form.readText (← (← f.single? "contentHash").map (·.1))
    cachedAt := (← Form.readInt64 (← (← f.single? "cachedAt").map (·.1))).toInt
    document := ← Document.read (← (← f.single? "document").map (·.1)) }

/-- Reads an entry from the bytes of its file. -/
def Entry.ofBytes? (bytes : Bytes) : Option Entry := do
  Entry.read (← (Json.readParts Form.Part.selection .entry bytes).toOption)

end Cache

/-- A cache in a directory. -/
structure Cache where
  directory : Path
  deriving DecidableEq

namespace Cache

def entryPath (c : Cache) (k : Key) : Path := c.directory.join ⟨k.fileName⟩

/-- The document stored for a key, if it was made from the same bytes. -/
def load (c : Cache) (tree : FileTree) (k : Key) : Except Error (Option Document) :=
  let path := c.entryPath k
  match tree.read path with
  | .error .noEntry => .ok none
  | .error fault => .error (.io path fault)
  | .ok bytes =>
      .ok ((Entry.ofBytes? bytes).bind fun e =>
        if e.contentHash = Bytes.hex k.content then some e.document else none)

/-- Stores a document for a key at a time. -/
def store (c : Cache) (tree : FileTree) (k : Key) (time : Int) (d : Document)
    : Except Error FileTree := do
  let tree ← (tree.makeDirectories c.directory).mapError (.io c.directory)
  let entry : Entry := { contentHash := Bytes.hex k.content, cachedAt := time, document := d }
  let path := c.entryPath k
  (tree.write path (Bytes.ofText entry.toJson.compact)).mapError (.io path)

end Cache

/-- A document that has been stored, as it was when it was parsed in a directory. -/
def Document.restore (d : Document) (directory : Path) : Except Error Document :=
  Pass.restore.run .api { d with directory }

/-- Parses the document in a file or a directory, unless the cache has it, and keeps it there. -/
def Parser.cachedDocumentFile (p : Parser) (cache : Cache) (tree : FileTree) (time : Int)
    (path : Path) : Except Error Document × FileTree :=
  match p.source.readDocument path with
  | .error e => (.error e, tree)
  | .ok (bytes, directory) =>
      let key := Cache.Key.of path bytes
      match cache.load tree key with
      | .ok (some d) => (d.restore directory, tree)
      | .ok none | .error _ =>
          match p.document bytes directory with
          | .error e => (.error e, tree)
          | .ok d =>
              match cache.store tree key time d with
              | .ok tree => (.ok d, tree)
              | .error _ => (.ok d, tree)

end Raml
