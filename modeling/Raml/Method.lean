import Raml.TypeNode

/-! Methods, the responses they give, and traits, which have the shape of methods. -/

namespace Raml

/-- Media types and the types of their bodies. Until the default media types are applied, the empty
key holds a body that was declared without one. -/
abbrev Bodies := List (String × TypeNode)

structure Response where
  description : String := ""
  annotations : Annotations := []
  headers : Properties := []
  bodies : Bodies := []
  deriving Inhabited

abbrev Responses := List (UInt16 × Response)

namespace Responses

/-- Sets the response of a status: in place if there is one, else at the end. -/
def insert : Responses → UInt16 → Response → Responses
  | [], status, r => [(status, r)]
  | (s, q) :: rs, status, r =>
      if s = status then (s, r) :: rs else (s, q) :: insert rs status r

end Responses

mutual

structure Method where
  displayName : String
  description : String
  annotations : List (String × Annotation)
  queryParameters : List (String × Property)
  headers : List (String × Property)
  queryString : Option Fragment
  responses : List (UInt16 × Response)
  bodies : List (String × TypeNode)
  protocols : List String
  is : List Trait
  securedBy : Option Fragment
  /-- Keys that no method has. -/
  unexpected : List String

/-- The declaration of a trait, or its use by name. -/
structure Trait where
  /-- The name of the trait that is used; empty in declarations. -/
  reference : String
  method : Method
  usage : String
  resourcePath : String
  resourcePathName : String
  methodName : String
  /-- The path of the file that the declaration has still to be read from. -/
  source : Option String

end

abbrev Traits := List (String × Trait)

/-- A method that declares nothing. -/
def Method.empty : Method :=
  { displayName := "", description := "", annotations := [], queryParameters := [], headers := []
    queryString := none, responses := [], bodies := [], protocols := [], is := []
    securedBy := none, unexpected := [] }

instance : Inhabited Method := ⟨.empty⟩

namespace Trait

/-- A trait that declares nothing. -/
def empty : Trait :=
  { reference := "", method := .empty, usage := "", resourcePath := "", resourcePathName := ""
    methodName := "", source := none }

instance : Inhabited Trait := ⟨empty⟩

/-- The use of a trait by name. -/
def use (name : String) : Trait := { empty with reference := name }

/-- A declaration in a file. -/
def inFile (path : String) : Trait := { empty with source := some path }

end Trait

end Raml
