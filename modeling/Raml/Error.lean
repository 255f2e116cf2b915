import Raml.Json.Cursor
import Raml.Mismatch
import Raml.Source
import Raml.Target
import Raml.Value
import Raml.Yaml.Fault
import Raml.Yaml.Node

/-! What can go wrong from reading a document to checking a value, and how that is put into words.
-/

namespace Raml

/-- What a node of a document should have been. -/
inductive Expected where
  | mapping
  | scalar
  | strings
  | typeDeclaration
  | traitDeclaration
  | traitName
  | method
  | body
  | libraryPath
  deriving DecidableEq

def Expected.text : Expected → String
  | .mapping => "a mapping"
  | .scalar => "a scalar"
  | .strings => "a string or a list of strings"
  | .typeDeclaration => "a type name or declaration"
  | .traitDeclaration => "a trait declaration"
  | .traitName => "a trait name"
  | .method => "a method"
  | .body => "a body declaration"
  | .libraryPath => "a library path"

/-- Why the content of a node cannot be read. -/
inductive DecodeFault where
  | mismatch (m : Mismatch)
  | keyNotScalar
  | invalidStatus (text : String)

def DecodeFault.message : DecodeFault → String
  | .mismatch m => m.message
  | .keyNotScalar => "mapping keys must be scalars"
  | .invalidStatus text => "invalid status code " ++ Text.quoted text

/-- Why settings cannot be read, and where. -/
inductive SettingsFault where
  | malformed (failure : Json.Failure)
  | mismatch (m : Mismatch) (place : Json.Place)

def SettingsFault.message : SettingsFault → String
  | .malformed ⟨fault, place⟩ => located fault.message place
  | .mismatch m place => located m.message place
where
  located (text : String) (place : Json.Place) : String :=
    s!"{text} at line {place.line} column {place.column}"

inductive Error where
  /-- The first line does not start with the mark of the format. -/
  | unexpectedVersion (actual : String)
  /-- A text is no YAML; the excerpt shows the lines around the fault. -/
  | yaml (fault : Yaml.Fault) (excerpt : Option String)
  | io (path : Path) (fault : FileFault)
  | libraryLoad (path : Path) (cause : Error)
  /-- A library uses itself, if only through others. -/
  | endlessUse (path : Path)
  | wrongShape (path : String) (expected : Expected) (found : Yaml.Shape)
  | decode (path : String) (fault : DecodeFault)
  | invalidTarget (path : String) (name : String)
  | typeUndefined (name : String)
  /-- A type inherits from itself; the chain leads from its name back to it. -/
  | cyclicType (name : String) (chain : List String)
  | traitUndefined (name : String)
  | annotationUndefined (name : String)
  | annotationNotAllowed (name : String) (places : List Target)
  | missingMediaType
  | typo (key : String) (node : String)
  | unusedAnnotations (names : List String)
  | unusedTraits (names : List String)
  | duplicateProperty (name : String)
  /-- A value of the wrong kind: the value at hand, or the one of a property of it. -/
  | typeMismatch (property : Option String) (expected : String) (actual : ValueKind)
  | propertyMismatch (property : String) (cause : Error)
  | elementMismatch (index : Nat) (expected : String) (actual : ValueKind)
  | requiredProperty (property : String) (owner : String)
  | settings (path : String) (fault : SettingsFault)

namespace Error

/-- The mark with which every document starts. -/
def versionMark : String := "#%RAML 1.0"

/-- The wording of an error. -/
def message : Error → String
  | unexpectedVersion actual =>
      "RAML version should be " ++ Text.quoted versionMark ++ " but got " ++ Text.quoted actual
  | yaml fault excerpt =>
      let lines :=
        match excerpt with
        | some lines => "\n" ++ lines
        | none => ""
      s!"yaml: line {fault.line}: {fault.message}" ++ lines
  | io path fault => "failed to read " ++ path.text ++ ": " ++ fault.message
  | endlessUse path => "library " ++ path.text ++ " uses itself"
  | libraryLoad path cause => "failed to load library " ++ path.text ++ ": " ++ cause.message
  | wrongShape path expected found =>
      s!"at {path}: expected {expected.text}, found {found.text}"
  | decode path fault => s!"at {path}: {fault.message}"
  | invalidTarget path name =>
      s!"at {path}: invalid annotation target location " ++ Text.quoted name
  | typeUndefined name => "type " ++ Text.quoted name ++ " is not defined"
  | cyclicType name chain =>
      "type " ++ Text.quoted name ++ " inherits from itself: " ++ " -> ".intercalate chain
  | traitUndefined name => "trait " ++ Text.quoted name ++ " is not defined"
  | annotationUndefined name => "annotation type " ++ Text.quoted name ++ " is not defined"
  | annotationNotAllowed name places =>
      "annotation " ++ Text.quoted name ++ " is not allowed on "
        ++ ", ".intercalate (places.map Target.name)
  | missingMediaType => "body without media type but the document declares no default mediaType"
  | typo key node => "unexpected key " ++ Text.quoted key ++ s!" in {node}, possibly a typo"
  | unusedAnnotations names => "unused annotation types: " ++ ", ".intercalate names
  | unusedTraits names => "unused traits: " ++ ", ".intercalate names
  | duplicateProperty name => "property " ++ Text.quoted name ++ " is declared more than once"
  | typeMismatch property expected actual =>
      let owner :=
        match property with
        | some name => "property " ++ Text.quoted name ++ " "
        | none => ""
      owner ++ "type mismatch: expected " ++ Text.quoted expected ++ " but got " ++ actual.name
  | propertyMismatch property cause =>
      "property " ++ Text.quoted property ++ " type mismatch: " ++ cause.message
  | elementMismatch index expected actual =>
      s!"array element [{index}] type mismatch: expected " ++ Text.quoted expected ++ " but got "
        ++ actual.name
  | requiredProperty property owner =>
      "property " ++ Text.quoted property ++ " is required by type " ++ Text.quoted owner
  | settings path fault =>
      "invalid configproperty " ++ Text.quoted path ++ " : " ++ fault.message

/-- The error's wording and that of each cause behind it, the nearest cause first. -/
def trail : Error → List String
  | e@(io _ fault) => [e.message, fault.message]
  | e@(libraryLoad _ cause) | e@(propertyMismatch _ cause) => e.message :: cause.trail
  | e => [e.message]

end Error

end Raml
