import Raml.Library

/-! Documents: resources, and the declarations that they use. -/

namespace Raml

structure Resource where
  displayName : String
  description : String
  annotations : List (String × Annotation)
  methods : List (String × Method)
  is : List Trait
  type : Option Fragment
  securedBy : Option Fragment
  uriParameters : List (String × Property)
  resources : List (String × Resource)

abbrev Resources := List (String × Resource)

namespace Resource

/-- A resource that declares nothing. -/
def empty : Resource :=
  { displayName := "", description := "", annotations := [], methods := [], is := [], type := none
    securedBy := none, uriParameters := [], resources := [] }

instance : Inhabited Resource := ⟨empty⟩

/-- The methods that a resource may have, in order. -/
def methodNames : List String := ["get", "patch", "put", "post", "delete", "options", "head"]

mutual

/-- The resource that a path leads to from `key`, the key of a resource. The key is taken off the
front of the path, and what is left has to start with a slash. -/
def findAt (key : String) (path : List Char) : Resource → Option Resource
  | r@⟨_, _, _, _, _, _, _, _, resources⟩ =>
      if key.toList = path then some r
      else if key.toList.isPrefixOf path then
        let rest := path.drop key.toList.length
        if rest.head? = some '/' then find rest resources else none
      else none

/-- The first resource, in order of declaration, that a path leads to. -/
def find (path : List Char) : List (String × Resource) → Option Resource
  | [] => none
  | (key, r) :: rs => (findAt key path r).or (find path rs)

end

end Resource

structure DocumentationItem where
  title : String := ""
  content : String := ""
  deriving DecidableEq, Inhabited

structure Document where
  title : String := ""
  description : String := ""
  version : String := ""
  baseUri : String := ""
  baseUriParameters : Properties := []
  protocols : List String := []
  mediaType : List String := []
  documentation : List DocumentationItem := []
  securedBy : Option Fragment := none
  library : Library := .empty
  resources : Resources := []
  /-- The directory that relative paths start from. -/
  directory : Path := ⟨""⟩
  deriving Inhabited

/-- The resource that a full path leads to. -/
def Document.findResource? (d : Document) (path : String) : Option Resource :=
  Resource.find path.toList d.resources

end Raml
