import Raml.Method
import Raml.Keyed
import Raml.Path

/-! Libraries: declarations that can be used from elsewhere under a namespace. -/

namespace Raml

mutual

structure Library where
  usage : String
  schemas : Option Fragment
  types : List (String × TypeNode)
  traits : List (String × Trait)
  resourceTypes : Option Fragment
  annotationTypes : List (String × AnnotationType)
  annotations : List (String × Annotation)
  securitySchemes : Option Fragment
  uses : List (String × Use)
  /-- The directory of the file that the library was read from. -/
  location : Option Path

/-- A library under a namespace: the path of its file, or what is in it. -/
inductive Use where
  | external (path : String)
  | loaded (library : Library)

end

abbrev Types := List (String × TypeNode)
abbrev Uses := List (String × Use)

namespace Library

/-- A library that declares nothing. -/
def empty : Library :=
  { usage := "", schemas := none, types := [], traits := [], resourceTypes := none
    annotationTypes := [], annotations := [], securitySchemes := none, uses := [], location := none }

instance : Inhabited Library := ⟨empty⟩

/-- The library under a namespace, if it has been loaded. -/
def namespace? (l : Library) (name : String) : Option Library :=
  match Keyed.get? l.uses name with
  | some (.loaded library) => some library
  | _ => none

/-- The library that a chain of namespaces leads to. -/
def descend? (l : Library) : List String → Option Library
  | [] => some l
  | name :: rest => (l.namespace? name).bind (·.descend? rest)

/-- Splits a name at its last point and follows the namespaces before it. -/
def qualified? (l : Library) (name : String) : Option (Library × String) :=
  let parts := TypeName.parts name
  (l.descend? parts.dropLast).map fun found => (found, parts.getLastD "")

/-- The type that a name denotes, also in a namespace. -/
def getType? (l : Library) (name : String) : Option TypeNode := do
  let (library, name) ← l.qualified? name
  Keyed.get? library.types name

/-- The trait that a name denotes, also in a namespace. -/
def getTrait? (l : Library) (name : String) : Option Trait := do
  let (library, name) ← l.qualified? name
  Keyed.get? library.traits name

/-- The declaration of an annotation that a name denotes, also in a namespace. -/
def getAnnotationType? (l : Library) (name : String) : Option AnnotationType := do
  let (library, name) ← l.qualified? name
  Keyed.get? library.annotationTypes name

mutual

/-- The libraries below a library, each behind the namespaces that lead to it. -/
def nestedFrom (lead : String) : Library → List (String × Library)
  | ⟨_, _, _, _, _, _, _, _, uses, _⟩ => nestedUses lead uses

def nestedUses (lead : String) : List (String × Use) → List (String × Library)
  | [] => []
  | (name, use) :: uses => nestedUse (lead ++ name ++ ".") use ++ nestedUses lead uses

def nestedUse (lead : String) : Use → List (String × Library)
  | .external _ => []
  | .loaded library => (lead, library) :: nestedFrom lead library

end

/-- The loaded libraries below a library, outermost first, each with its namespaces and a point
behind every one. -/
def nested (l : Library) : List (String × Library) := l.nestedFrom ""

end Library

end Raml
