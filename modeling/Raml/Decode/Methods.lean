import Raml.Decode.Types
import Raml.Method

/-! Methods, responses, bodies and traits, as they are written in a document. -/

namespace Raml.Decode

open Yaml (Node)

/-- The digits of a status, behind an optional sign. -/
def statusDigits (text : String) : List Char :=
  match text.toList with
  | '+' :: ds => ds
  | ds => ds

/-- The status that a key names. -/
def status? (text : String) : Option UInt16 :=
  let ds := statusDigits text
  if ds.isEmpty || !ds.all Char.isDigit then none
  else
    let n : Nat := ds.foldl (fun n d => n * 10 + (d.toNat - 48)) 0
    if n < 65536 then some n.toUInt16 else none

/-- Whether a key names a media type. -/
def isMediaType (key : String) : Bool := key.toList.contains '/'

/-- Bodies by their media types, or a single one without. -/
def bodies (node : Node) (path : String) : Except Error Bodies :=
  let single : Except Error Bodies := do return [("", ← typeNode node path)]
  match node with
  | .null => .ok []
  | .bool _ | .num _ | .str _ => single
  | .map entries => do
      let f ← fields (.map entries) path
      if f.entries.any fun (key, _) => isMediaType key then
        f.collect (fun _ => true) fun _ inner path => typeNode inner.1 path
      else single
  | node => .error (.wrongShape path .body node.shape)

def response (node : Node) (path : String) : Except Error Response := do
  let f ← fields node path
  let description ← f.text "description"
  let annotations ← f.annotations
  let headers ← f.properties "headers"
  let bodies ← f.orElse "body" bodies []
  return { description, annotations, headers, bodies }

/-- Responses by their statuses. -/
def responses (node : Node) (path : String) : Except Error Responses := do
  (← fields node path).entries.foldlM (fun found (key, inner) => do
    let path := fieldPath path key
    match status? key with
    | none => throw (.decode path (.invalidStatus key))
    | some status => return Responses.insert found status (← response inner.1 path)) []

/-- The use of a trait: its name, alone or with parameters, which count for nothing. -/
def traitUse (node : Node) (path : String) : Except Error Trait :=
  match node with
  | .bool _ | .num _ | .str _ => (text node path).map .use
  | .map [(key, _)] => key.keyText.map .use
  | node => .error (.wrongShape path .traitName node.shape)

/-- The uses of traits; a single one may stand without a list. -/
def traitUses (node : Node) (path : String) : Except Error (List Trait) :=
  match node with
  | .null => .ok []
  | .seq nodes => nodes.zipIdx.mapM fun (item, i) => traitUse item (itemPath path i)
  | node => do return [← traitUse node path]

/-- The keys of methods. -/
def methodKeys : List String :=
  ["displayName", "description", "queryParameters", "headers", "queryString", "protocols",
    "securedBy", "responses", "body", "is"]

/-- The method that fields declare; `ownKeys` are those that are no fields of the method. -/
def methodFields (f : Fields node) (ownKeys : List String) : Except Error Method := do
  let displayName ← f.text "displayName"
  let description ← f.text "description"
  let annotations ← f.annotations
  let queryParameters ← f.properties "queryParameters"
  let headers ← f.properties "headers"
  let queryString ← f.fragment "queryString"
  let protocols ← f.strings "protocols"
  let securedBy ← f.fragment "securedBy"
  let responses ← f.orElse "responses" responses []
  let bodies ← f.orElse "body" bodies []
  let is ← f.orElse "is" traitUses []
  return {
    displayName, description, annotations, queryParameters, headers, queryString, responses, bodies
    protocols, is, securedBy, unexpected := f.unknownKeys (ownKeys ++ methodKeys) }

def method (node : Node) (path : String) : Except Error Method :=
  match node with
  | .null => .ok .empty
  | .map entries => do methodFields (← fields (.map entries) path) []
  | node => .error (.wrongShape path .method node.shape)

/-- The keys of traits that methods do not have. -/
def traitKeys : List String := ["usage", "resourcePath", "resourcePathName", "methodName"]

/-- The declaration of a trait, or the path of a file that holds it. -/
def traitDeclaration (node : Node) (path : String) : Except Error Trait :=
  match node with
  | .null => .ok .empty
  | .bool _ | .num _ | .str _ => (text node path).map .inFile
  | .map entries => do
      let f ← fields (.map entries) path
      let usage ← f.text "usage"
      let resourcePath ← f.text "resourcePath"
      let resourcePathName ← f.text "resourcePathName"
      let methodName ← f.text "methodName"
      let method ← methodFields f traitKeys
      return { Trait.empty with method, usage, resourcePath, resourcePathName, methodName }
  | .seq _ => .error (.wrongShape path .traitDeclaration node.shape)
  | .tagged _ _ => do
      match ← includedPath? node path with
      | some file => return .inFile file
      | none => throw (.wrongShape path .traitDeclaration node.shape)

end Raml.Decode
