import Raml.Decode.Methods
import Raml.Document

/-! Resources, libraries and documents, as they are written. -/

namespace Raml.Decode

open Yaml (Node)

/-- The methods of a resource, in the order in which methods are known. -/
def methods (f : Fields node) : Except Error (List (String × Method)) := do
  let found ← Resource.methodNames.mapM fun name => do
    return (← f.optional name method).map (name, ·)
  return found.filterMap id

/-- Whether a key names a resource. -/
def isResourceKey (key : String) : Bool := key.startsWith "/"

/-- A resource and those below it. -/
def resource (node : Node) (path : String) : Except Error Resource := do
  let f ← fields node path
  let displayName ← f.text "displayName"
  let description ← f.text "description"
  let annotations ← f.annotations
  let type ← f.fragment "type"
  let securedBy ← f.fragment "securedBy"
  let uriParameters ← f.properties "uriParameters"
  let methods ← methods f
  let is ← f.orElse "is" traitUses []
  let resources ← f.collect isResourceKey fun _ inner path => resource inner.1 path
  return {
    displayName, description, annotations, methods, is, type, securedBy, uriParameters, resources }
termination_by sizeOf node
decreasing_by exact inner.2

/-- The resources among the fields of a document. -/
def resources (f : Fields node) : Except Error Resources :=
  f.collect isResourceKey fun _ inner path => resource inner.1 path

/-- The declarations in a field, by their names. -/
def declarations {α : Type} (f : Fields node) (key : String)
    (read : Node → String → Except Error α) : Except Error (List (String × α)) :=
  f.orElse key (fun node path => each node path fun _ inner path => read inner.1 path) []

mutual

/-- The library that fields declare. -/
def libraryFields (node : Node) (f : Fields node) : Except Error Library := do
  let usage ← f.text "usage"
  let schemas ← f.fragment "schemas"
  let resourceTypes ← f.fragment "resourceTypes"
  let securitySchemes ← f.fragment "securitySchemes"
  let annotations ← f.annotations
  let types ← declarations f "types" typeNode
  let traits ← declarations f "traits" traitDeclaration
  let annotationTypes ← declarations f "annotationTypes" annotationType
  let uses ←
    match f.get? "uses" with
    | some inner => uses inner.1 (fieldPath f.path "uses")
    | none => .ok []
  return {
    usage, schemas, types, traits, resourceTypes, annotationTypes, annotations, securitySchemes
    uses, location := none }
termination_by 4 * sizeOf node + 2
decreasing_by
  have := inner.2
  omega

/-- The libraries that are used, by their namespaces. -/
def uses (node : Node) (path : String) : Except Error Uses :=
  each node path fun _ inner path => use inner.1 path
termination_by 4 * sizeOf node + 1
decreasing_by
  have := inner.2
  omega

/-- The path of a library, or the library itself. -/
def use (node : Node) (path : String) : Except Error Use :=
  match node with
  | .bool _ | .num _ | .str _ => (text node path).map .external
  | .map entries => do
      return .loaded (← libraryFields (.map entries) (← fields (.map entries) path))
  | .tagged _ _ => do
      match ← includedPath? node path with
      | some file => return .external file
      | none => throw (.wrongShape path .libraryPath node.shape)
  | node => .error (.wrongShape path .libraryPath node.shape)
termination_by 4 * sizeOf node + 3

end

/-- The library that the text of a library declares. -/
def library (node : Node) (path : String) : Except Error Library := do
  libraryFields node (← fields node path)

/-- Reads the fields of an item of the documentation in order; keys other than title and content
count for nothing. -/
def documentationFields (path : String) (item : DocumentationItem) (seen : List String)
    : List (Node × Node) → Except Error DocumentationItem
  | [] => .ok item
  | (key, node) :: entries => do
      match untagged key with
      | .str name =>
          if name = "title" ∨ name = "content" then
            if seen.contains name then throw (.decode path (.mismatch (.duplicateField name)))
            let s ← string node (fieldPath path name)
            let item := if name = "title" then { item with title := s } else { item with content := s }
            documentationFields path item (name :: seen) entries
          else documentationFields path item seen entries
      | _ => mismatch key (fieldPath path "?") "field identifier"

def documentationItem (node : Node) (path : String) : Except Error DocumentationItem :=
  match untagged node with
  | .null => .ok {}
  | .map entries => documentationFields path {} [] entries
  | _ => mismatch node path "struct DocumentationItem"

def documentation (node : Node) (path : String) : Except Error (List DocumentationItem) :=
  match untagged node with
  | .null => .ok []
  | .seq nodes => nodes.zipIdx.mapM fun (item, i) => documentationItem item (itemPath path i)
  | _ => mismatch node path "a sequence"

/-- A document. -/
def document (node : Node) : Except Error Document := do
  let f ← fields node ""
  let title ← f.text "title"
  let description ← f.text "description"
  let version ← f.text "version"
  let baseUri ← f.text "baseUri"
  let baseUriParameters ← f.properties "baseUriParameters"
  let protocols ← f.strings "protocols"
  let mediaType ← f.strings "mediaType"
  let securedBy ← f.fragment "securedBy"
  let documentation ← f.orElse "documentation" documentation []
  let library ← libraryFields node f
  let resources ← resources f
  return {
    title, description, version, baseUri, baseUriParameters, protocols, mediaType, documentation
    securedBy, library, resources }

end Raml.Decode
