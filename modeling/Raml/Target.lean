/-! Places in a document where an annotation may be applied. -/

namespace Raml

inductive Target where
  /-- The root of a document. -/
  | api
  | documentationItem
  | resource
  | method
  | response
  | requestBody
  | responseBody
  /-- A type, a header, a parameter or a property. -/
  | typeDeclaration
  | example
  | resourceType
  | trait
  | securityScheme
  | securitySchemeSettings
  | annotationType
  /-- The root of a library. -/
  | library
  | overlay
  | extension
  deriving DecidableEq, Inhabited

namespace Target

def all : List Target :=
  [.api, .documentationItem, .resource, .method, .response, .requestBody, .responseBody,
    .typeDeclaration, .example, .resourceType, .trait, .securityScheme, .securitySchemeSettings,
    .annotationType, .library, .overlay, .extension]

def name : Target → String
  | .api => "API"
  | .documentationItem => "DocumentationItem"
  | .resource => "Resource"
  | .method => "Method"
  | .response => "Response"
  | .requestBody => "RequestBody"
  | .responseBody => "ResponseBody"
  | .typeDeclaration => "TypeDeclaration"
  | .example => "Example"
  | .resourceType => "ResourceType"
  | .trait => "Trait"
  | .securityScheme => "SecurityScheme"
  | .securitySchemeSettings => "SecuritySchemeSettings"
  | .annotationType => "AnnotationType"
  | .library => "Library"
  | .overlay => "Overlay"
  | .extension => "Extension"

/-- The place that a name stands for. -/
def ofName? (name : String) : Option Target := all.find? (·.name == name)

end Target

end Raml
