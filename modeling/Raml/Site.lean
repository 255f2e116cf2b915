import Raml.Document

/-! The places of a document at which there is something to check, in the order of the walk. -/

namespace Raml

/-- A place in a document. `lead` are the namespaces that lead to the library around it. -/
inductive Site where
  | typeNode (t : TypeNode)
  /-- Annotations, and what the place at which they are applied counts as. -/
  | annotations (lead : String) (targets : List Target) (annotations : Annotations)
  /-- The declaration or the use of a trait. -/
  | trait (lead : String) (t : Trait)
  | method (m : Method)

mutual

/-- The places in a type. -/
def TypeNode.sites (lead : String) (targets : List Target) : TypeNode → List Site
  | t@⟨_, ⟨properties, _, _, _, _, _⟩, _, _, _, _, _, _, _, _⟩ =>
      .typeNode t :: .annotations lead targets t.declaration.annotations
        :: t.allExamples.map (fun e => .annotations lead [.example] e.annotations)
        ++ propertySites lead properties

def Property.sites (lead : String) : Property → List Site
  | ⟨type, _, _⟩ => type.sites lead [.typeDeclaration]

def propertySites (lead : String) : List (String × Property) → List Site
  | [] => []
  | (_, p) :: properties => p.sites lead ++ propertySites lead properties

end

/-- The places in bodies. -/
def Bodies.sites (lead : String) (site : Target) (bodies : Bodies) : List Site :=
  bodies.flatMap fun (_, t) => t.sites lead [.typeDeclaration, site]

def Response.sites (lead : String) (r : Response) : List Site :=
  .annotations lead [.response] r.annotations :: propertySites lead r.headers
    ++ Bodies.sites lead .responseBody r.bodies

mutual

/-- The places in a method or in the part of a trait that is like a method. -/
def Method.sites (lead : String) (target : Target) : Method → List Site
  | ⟨_, _, annotations, queryParameters, headers, _, responses, bodies, _, is, _, _⟩ =>
      .annotations lead [target] annotations :: propertySites lead queryParameters
        ++ propertySites lead headers ++ traitSites lead is
        ++ Bodies.sites lead .requestBody bodies
        ++ responses.flatMap fun (_, r) => r.sites lead

def Trait.sites (lead : String) : Trait → List Site
  | t@⟨_, method, _, _, _, _, _⟩ => .trait lead t :: method.sites lead .trait

def traitSites (lead : String) : List Trait → List Site
  | [] => []
  | t :: traits => t.sites lead ++ traitSites lead traits

end

mutual

/-- The places in a resource and in those below it. -/
def Resource.sites (lead : String) : Resource → List Site
  | ⟨_, _, annotations, methods, is, _, _, uriParameters, resources⟩ =>
      .annotations lead [.resource] annotations :: propertySites lead uriParameters
        ++ traitSites lead is
        ++ methods.flatMap (fun (_, m) => .method m :: m.sites lead .method)
        ++ resourceSites lead resources

def resourceSites (lead : String) : List (String × Resource) → List Site
  | [] => []
  | (_, r) :: resources => r.sites lead ++ resourceSites lead resources

end

mutual

/-- The places in a library, which counts as `target`, and in those nested in it. -/
def Library.sites (lead : String) (target : Target) : Library → List Site
  | ⟨_, _, types, traits, _, annotationTypes, annotations, _, uses, _⟩ =>
      types.flatMap (fun (_, t) => t.sites lead [.typeDeclaration])
        ++ traits.flatMap (fun (_, t) => t.sites lead)
        ++ annotationTypes.flatMap (fun (_, a) => a.type.sites lead [.annotationType])
        ++ .annotations lead [target] annotations :: useSites lead uses

def Use.sites (lead : String) : Use → List Site
  | .external _ => []
  | .loaded library => library.sites lead .library

def useSites (lead : String) : List (String × Use) → List Site
  | [] => []
  | (name, use) :: uses => use.sites (lead ++ name ++ ".") ++ useSites lead uses

end

/-- The places in a document, whose library counts as `target`. -/
def Document.sites (target : Target) (d : Document) : List Site :=
  d.library.sites "" target ++ resourceSites "" d.resources ++ propertySites "" d.baseUriParameters

end Raml
