import Raml.Error
import Raml.Settings
import Raml.Text.Excerpt
import Raml.Yaml.Document

/-! From the bytes of a file to the node that they spell. -/

namespace Raml

/-- The first line without its break. -/
def firstLine (bytes : Bytes) : Bytes := bytes.takeWhile (· ≠ 0x0A)

/-- Documents start with the mark of their format. -/
def requireVersion (bytes : Bytes) : Except Error Unit :=
  let mark := Bytes.ofText Error.versionMark
  let head := (firstLine bytes).take mark.length
  if head = mark then .ok () else .error (.unexpectedVersion (Utf8.lossy head))

/-- Reads the node that bytes spell. -/
def Settings.readNode (s : Settings) (bytes : Bytes) : Except Error Yaml.Node := do
  if s.checkVersion then requireVersion bytes
  match Yaml.read bytes with
  | .ok node => return node
  | .error fault =>
      let shown := 0 ≤ s.excerptDistance ∧ 0 < fault.line
      throw (.yaml fault
        (if shown then some (Text.excerpt (Utf8.lossy bytes) fault.line s.excerptDistance)
          else none))

end Raml
