import Raml.Json

/-! The parts of a stored document of which only the known fields are read. -/

namespace Raml.Form

/-- The kinds of parts of a cache entry. -/
inductive Part where
  | entry
  | document
  | documentation
  | documentationItem
  | resources
  | resource
  | methods
  | method
  | responses
  | response
  /-- A part that is read as a whole. -/
  | whole
  deriving DecidableEq, Inhabited

namespace Part

/-- The fields of a part whose other members are not read, in order. -/
def fields : Part → List (String × Part)
  | .entry => [("contentHash", .whole), ("cachedAt", .whole), ("document", .document)]
  | .documentationItem => [("title", .whole), ("content", .whole)]
  | .resource =>
      [("displayName", .whole), ("description", .whole), ("annotations", .whole),
        ("methods", .methods), ("is", .whole), ("type", .whole), ("securedBy", .whole),
        ("uriParameters", .whole), ("resources", .resources)]
  | .method =>
      [("displayName", .whole), ("description", .whole), ("annotations", .whole),
        ("queryParameters", .whole), ("headers", .whole), ("queryString", .whole),
        ("responses", .responses), ("body", .whole), ("protocols", .whole), ("is", .whole),
        ("securedBy", .whole)]
  | .response =>
      [("description", .whole), ("annotations", .whole), ("headers", .whole), ("body", .whole)]
  | _ => []

/-- The names of the fields in order. -/
def fieldNames (part : Part) : List String := part.fields.map (·.1)

/-- What a member of a document is; all of them are read. -/
def ofDocument : String → Part
  | "documentation" => .documentation
  | "resources" => .resources
  | _ => .whole

/-- What the member under a key is, if it is read. -/
def member? : Part → String → Option Part
  | .document, key => some (ofDocument key)
  | .resources, _ => some .resource
  | .methods, _ => some .method
  | .responses, _ => some .response
  | .whole, _ => some .whole
  | part, key => part.fields.lookup key

/-- What the item at a place in a list is: an item of the documentation, or the field that has this
place. -/
def item : Part → Nat → Part
  | .documentation, _ => .documentationItem
  | part, index => (part.fields[index]?.map (·.2)).getD .whole

/-- How much of a cache entry is read. The keys of responses are statuses as they are written. -/
def selection : Json.Selection Part :=
  { member?, item, keysAsWritten := (· = .responses) }

end Part

end Raml.Form
