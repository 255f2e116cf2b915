import Raml.Pass.Fill
import Raml.Pass.Normalize

/-! The pass that restores what the written form of a document leaves out. -/

namespace Raml

/-- Files have bounds of length of their own. The written form has one pair, which is read as that
of strings. -/
def TypeNode.claimLength (t : TypeNode) : TypeNode :=
  if t.kind = .file ∧ t.file.minLength = 0 ∧ t.file.maxLength = unbounded then
    { t with
      file := { t.file with minLength := t.string.minLength, maxLength := t.string.maxLength }
      string := { t.string with minLength := 0, maxLength := unbounded } }
  else t

/-- An example from a file has been read; for types that are files, its text stands for bytes. -/
def Example.restore (kind : Kind) (e : Example) : Example :=
  if !e.included then e
  else
    let value :=
      if kind = .file then (e.value.bind Value.decodeBinary?).or e.value else e.value
    { e with value, loaded := true }

/-- Restores what follows from the name of a type; its kind has been written. -/
def TypeNode.restore (t : TypeNode) : TypeNode :=
  let t := { t.deriveFromName with kind := t.kind, resolved := true }.claimLength
  { t with
    declaration := { t.declaration with
      example? := t.declaration.example?.map (Example.restore t.kind)
      examples := t.declaration.examples.map fun (name, e) => (name, e.restore t.kind) } }

/-- Names annotations by their keys and links them as far as they have declarations. -/
def Annotations.restore (library : Library) (annotations : Annotations) : Annotations :=
  let named : Annotations := annotations.map fun (key, a) => (key, { a with name := key })
  named.withValues.link library

namespace Pass

/-- What the written form leaves out is restored. -/
def restore : Pass :=
  ofHooks fun scope =>
    { node := fun t => .ok t.restore
      properties := fun ps => .ok ps.nameByKeys
      annotations := fun _ a => .ok (a.restore scope.library) }

end Pass

end Raml
