import Raml.Document
import Raml.Error

/-! Passes over a document: each changes nodes of some kinds and leaves the others as they are.

A document is walked in one order, depth first: the declarations of the library, what is applied to
it, the libraries it uses, then the resources. The first error ends the walk.
-/

namespace Raml

/-- The library that a node is declared in. -/
structure Scope where
  /-- The namespaces that lead to the library, each with a point behind it. -/
  lead : String
  /-- The library as it was before the pass. -/
  library : Library
  /-- The directory that relative paths in the library start from. -/
  directory : Path

namespace Scope

/-- The scope of a library that is used under a namespace. -/
def enter (s : Scope) (name : String) (library : Library) : Scope :=
  { lead := s.lead ++ name ++ ".", library, directory := library.location.getD s.directory }

end Scope

/-- The scope of a document's own nodes. -/
def Document.scope (d : Document) : Scope :=
  { lead := "", library := d.library, directory := d.directory }

/-- What a pass does to types and what belongs to them. -/
structure TypeHooks where
  /-- Changes a type but for its properties. -/
  node : TypeNode → Except Error TypeNode := .ok
  /-- Changes properties but for their types; there are as many as before. -/
  properties : Properties → Except Error Properties := .ok
  /-- Changes annotations that are applied at a place that counts as any of the targets. -/
  annotations : List Target → Annotations → Except Error Annotations := fun _ a => .ok a

/-- Properties with other types, given in order. -/
def Properties.withTypes (properties : Properties) (types : List TypeNode) : Properties :=
  properties.zipWith (fun (key, p) type => (key, { p with type })) types

/-- Applies hooks to a type itself and to its annotations and those of its examples. -/
def TypeHooks.apply (h : TypeHooks) (targets : List Target) (t : TypeNode)
    : Except Error TypeNode := do
  let t ← h.node t
  let annotations ← h.annotations targets t.declaration.annotations
  let t := { t with declaration := { t.declaration with annotations } }
  t.mapExamplesM fun e => do
    return { e with annotations := ← h.annotations [.example] e.annotations }

mutual

/-- Applies hooks to a type and to those of its properties, at every depth. -/
def TypeNode.visit (h : TypeHooks) (targets : List Target) : TypeNode → Except Error TypeNode
  | t@⟨_, ⟨properties, _, _, _, _, _⟩, _, _, _, _, _, _, _, _⟩ => do
      let visited ← h.apply targets t
      let renamed ← h.properties properties
      let types ← visitTypes h properties
      return visited.withProperties (renamed.withTypes types)

def Property.visitType (h : TypeHooks) : Property → Except Error TypeNode
  | ⟨type, _, _⟩ => type.visit h [.typeDeclaration]

def visitTypes (h : TypeHooks) : List (String × Property) → Except Error (List TypeNode)
  | [] => .ok []
  | (_, p) :: properties => do
      let type ← p.visitType h
      return type :: (← visitTypes h properties)

end

/-- Applies hooks to properties and their types, at every depth. -/
def Properties.visit (h : TypeHooks) (properties : Properties) : Except Error Properties := do
  let renamed ← h.properties properties
  return renamed.withTypes (← visitTypes h properties)

/-- What a pass does to a document. -/
structure Pass where
  /-- Changes a type and everything in it. -/
  type : Scope → List Target → TypeNode → Except Error TypeNode := fun _ _ t => .ok t
  /-- Changes properties and everything in them. -/
  properties : Scope → Properties → Except Error Properties := fun _ ps => .ok ps
  annotations : Scope → List Target → Annotations → Except Error Annotations := fun _ _ a => .ok a
  annotationTypes : AnnotationTypes → AnnotationTypes := id
  /-- Takes a trait as done, with what comes in its place, or leaves it to be walked. -/
  trait : Scope → Trait → Except Error (Option Trait) := fun _ _ => .ok none
  /-- Changes the parameters of the resource under a key. -/
  uriParameters : String → Properties → Properties := fun _ ps => ps
  bodies : Bodies → Except Error Bodies := .ok

namespace Pass

/-- The pass that applies hooks to all types, wherever they are. -/
def ofHooks (hooks : Scope → TypeHooks) : Pass :=
  { type := fun scope targets t => t.visit (hooks scope) targets
    properties := fun scope ps => ps.visit (hooks scope)
    annotations := fun scope => (hooks scope).annotations }

/-- Changes the values of a map in order. -/
def onValues {α : Type} (f : α → Except Error α) (entries : List (String × α))
    : Except Error (List (String × α)) :=
  entries.mapM fun (key, x) => do return (key, ← f x)

/-- Walks the bodies at a place. -/
def onBodies (p : Pass) (scope : Scope) (site : Target) (bodies : Bodies)
    : Except Error Bodies := do
  onValues (p.type scope [.typeDeclaration, site]) (← p.bodies bodies)

def onResponse (p : Pass) (scope : Scope) (r : Response) : Except Error Response := do
  let annotations ← p.annotations scope [.response] r.annotations
  let headers ← p.properties scope r.headers
  let bodies ← p.onBodies scope .responseBody r.bodies
  return { r with annotations, headers, bodies }

def onResponses (p : Pass) (scope : Scope) (responses : Responses) : Except Error Responses :=
  responses.mapM fun (status, r) => do return (status, ← p.onResponse scope r)

mutual

/-- Walks what methods and traits have in common. -/
def onMethod (p : Pass) (scope : Scope) (target : Target) : Method → Except Error Method
  | ⟨displayName, description, annotations, queryParameters, headers, queryString, responses,
      bodies, protocols, is, securedBy, unexpected⟩ => do
      let annotations ← p.annotations scope [target] annotations
      let queryParameters ← p.properties scope queryParameters
      let headers ← p.properties scope headers
      let is ← onTraits p scope is
      let bodies ← p.onBodies scope .requestBody bodies
      let responses ← p.onResponses scope responses
      return ⟨displayName, description, annotations, queryParameters, headers, queryString,
        responses, bodies, protocols, is, securedBy, unexpected⟩

def onTrait (p : Pass) (scope : Scope) : Trait → Except Error Trait
  | t@⟨reference, method, usage, resourcePath, resourcePathName, methodName, source⟩ => do
      match ← p.trait scope t with
      | some done => return done
      | none =>
          let method ← onMethod p scope .trait method
          return ⟨reference, method, usage, resourcePath, resourcePathName, methodName, source⟩

def onTraits (p : Pass) (scope : Scope) : List Trait → Except Error (List Trait)
  | [] => .ok []
  | t :: traits => do
      let t ← onTrait p scope t
      return t :: (← onTraits p scope traits)

end

mutual

/-- Walks the resource under a key and those below it. -/
def onResource (p : Pass) (scope : Scope) (key : String) : Resource → Except Error Resource
  | ⟨displayName, description, annotations, methods, is, type, securedBy, uriParameters,
      resources⟩ => do
      let uriParameters := p.uriParameters key uriParameters
      let annotations ← p.annotations scope [.resource] annotations
      let uriParameters ← p.properties scope uriParameters
      let is ← p.onTraits scope is
      let methods ← onValues (p.onMethod scope .method) methods
      let resources ← onResources p scope resources
      return ⟨displayName, description, annotations, methods, is, type, securedBy, uriParameters,
        resources⟩

def onResources (p : Pass) (scope : Scope)
    : List (String × Resource) → Except Error (List (String × Resource))
  | [] => .ok []
  | (key, r) :: resources => do
      let r ← onResource p scope key r
      return (key, r) :: (← onResources p scope resources)

end

mutual

/-- Walks a library, which counts as `target`, and those nested in it. -/
def onLibrary (p : Pass) (scope : Scope) (target : Target) : Library → Except Error Library
  | ⟨usage, schemas, types, traits, resourceTypes, annotationTypes, annotations, securitySchemes,
      uses, location⟩ => do
      let types ← onValues (p.type scope [.typeDeclaration]) types
      let traits ← onValues (p.onTrait scope) traits
      let annotationTypes ← onValues (fun a => do
        return { a with type := ← p.type scope [.annotationType] a.type })
        (p.annotationTypes annotationTypes)
      let annotations ← p.annotations scope [target] annotations
      let uses ← onUses p scope uses
      return ⟨usage, schemas, types, traits, resourceTypes, annotationTypes, annotations,
        securitySchemes, uses, location⟩

def onUse (p : Pass) (scope : Scope) (name : String) : Use → Except Error Use
  | .external path => .ok (.external path)
  | .loaded library => do
      return .loaded (← onLibrary p (scope.enter name library) .library library)

def onUses (p : Pass) (scope : Scope) : List (String × Use) → Except Error (List (String × Use))
  | [] => .ok []
  | (name, use) :: uses => do
      let use ← onUse p scope name use
      return (name, use) :: (← onUses p scope uses)

end

/-- Runs a pass over a document, whose library counts as `target`. -/
def run (p : Pass) (target : Target) (d : Document) : Except Error Document := do
  let library ← p.onLibrary d.scope target d.library
  let resources ← p.onResources d.scope d.resources
  let baseUriParameters ← p.properties d.scope d.baseUriParameters
  return { d with library, resources, baseUriParameters }

end Pass

end Raml
