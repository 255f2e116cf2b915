import Raml.Error
import Raml.TypeNode
import Raml.Library

/-! Resolution: every type inherits from its base, down to the types of its properties.

Declared types are resolved in place, those of nested libraries first. A chain of bases that comes
back to a type under resolution is an error, unless it passes through a property: then the type
refers to itself, and the reference stays as it is.
-/

namespace Raml

/-- How the base of a type is found: by its name and whether the type is that of a property. `none`
stands for a base that is under resolution itself. -/
abbrev BaseLookup (m : Type → Type) := String → Bool → m (Option TypeNode)

variable {m : Type → Type} [Monad m]

mutual

/-- Inherits from the base, then resolves the types of the properties. A base that has been found is
resolved itself, so properties that are taken from it are left alone. -/
def TypeNode.fillWith (lookup : BaseLookup m) (inProperty : Bool) : TypeNode → m TypeNode
  | t@⟨_, ⟨properties, _, _, _, _, _⟩, _, _, _, _, _, _, _, _⟩ => do
      if t.resolved then return t
      let base? ← if t.needsLookup then lookup t.baseName inProperty else pure none
      let properties ← fillProperties lookup properties
      let filled :=
        match base? with
        | some base =>
            let inherited := t.inherit base
            if t.object.isEmpty then inherited else inherited.withProperties properties
        | none => t.withProperties properties
      return { filled with resolved := true }

def Property.fillWith (lookup : BaseLookup m) : Property → m Property
  | ⟨type, required, name⟩ => do return ⟨← type.fillWith lookup true, required, name⟩

def fillProperties (lookup : BaseLookup m)
    : List (String × Property) → m (List (String × Property))
  | [] => return []
  | (key, p) :: properties => do
      let p ← p.fillWith lookup
      return (key, p) :: (← fillProperties lookup properties)

end

/-- Finds bases among types that are resolved. -/
def resolvedBases (types : String → Option TypeNode) : BaseLookup (Except Error) := fun name _ =>
  match types name with
  | some base => .ok (some base)
  | none => .error (.typeUndefined name)

/-- Resolves a type against the resolved types of a library. -/
def TypeNode.fill (library : Library) (t : TypeNode) : Except Error TypeNode :=
  t.fillWith (resolvedBases library.getType?) false

namespace Annotation

/-- Links an annotation to its declaration as seen from a library, unless it is linked. -/
def link (library : Library) (a : Annotation) : Annotation :=
  if a.declared.isSome then a else { a with declared := library.getAnnotationType? a.name }

/-- Links an annotation, which has to have a declaration. -/
def linkDeclared (library : Library) (a : Annotation) : Except Error Annotation :=
  let linked := a.link library
  if linked.declared.isSome then .ok linked else .error (.annotationUndefined a.name)

end Annotation

mutual

/-- Links the annotations of a type and its properties. -/
def TypeNode.linkAnnotations (library : Library) : TypeNode → TypeNode
  | ⟨declaration, ⟨properties, minProperties, maxProperties, additionalProperties, discriminator,
      discriminatorValue⟩, scalar, string, array, file, baseName, isArray, kind, resolved⟩ =>
      let annotations := declaration.annotations.map fun (name, a) => (name, a.link library)
      ⟨{ declaration with annotations },
        ⟨linkProperties library properties, minProperties, maxProperties, additionalProperties,
          discriminator, discriminatorValue⟩,
        scalar, string, array, file, baseName, isArray, kind, resolved⟩

def Property.linkAnnotations (library : Library) : Property → Property
  | ⟨type, required, name⟩ => ⟨type.linkAnnotations library, required, name⟩

def linkProperties (library : Library) : List (String × Property) → List (String × Property)
  | [] => []
  | (key, p) :: properties => (key, p.linkAnnotations library) :: linkProperties library properties

end

/-- A type under resolution, and whether a property led to it. -/
structure Link where
  name : String
  viaProperty : Bool
  deriving DecidableEq

namespace Resolver

/-- The part of a chain of types under resolution that starts with a name. -/
def chainFrom (name : String) (chain : List Link) : List Link := chain.dropWhile (·.name ≠ name)

/-- Whether a name is that of a type in another library. -/
def isQualified (name : String) : Bool := name.toList.contains '.'

/-- Finds the base called `name` among declared types and resolves it in place. The names in `free`
are those that are not under resolution, and `outer` finds the types of other libraries. -/
def base (outer : String → Option TypeNode) (free : List String) (chain : List Link)
    : BaseLookup (StateT Types (Except Error)) := fun name viaProperty => do
  if isQualified name then
    match outer name with
    | some found => return some found
    | none => throw (.typeUndefined name)
  match chainFrom name chain with
  | first :: after =>
      if viaProperty || after.any Link.viaProperty then return none
      else throw (.cyclicType name ((first :: after).map Link.name ++ [name]))
  | [] =>
      match Keyed.get? (← get) name with
      | none => throw (.typeUndefined name)
      | some t =>
          if t.resolved then return some t
          else if _h : name ∈ free then
            let lookup := base outer (free.erase name) (chain ++ [⟨name, viaProperty⟩])
            let t ← t.fillWith lookup false
            modify fun types => Keyed.insert types name t
            return some t
          else throw (.typeUndefined name)
termination_by free.length
decreasing_by
  have := List.length_erase_of_mem _h
  have := List.length_pos_of_mem _h
  omega

/-- Resolves declared types in order of declaration. A type whose own name has a point in it is no
base of any other and stays as it is. -/
def types (outer : String → Option TypeNode) (types : Types) : Except Error Types := do
  let names := Keyed.keys types
  let resolveAll : StateT Types (Except Error) Unit :=
    (names.filter fun name => !isQualified name).forM fun name =>
      discard <| base outer names [] name false
  return (← resolveAll.run types).2

end Resolver

namespace Library

/-- Resolves the types of a library whose nested libraries are resolved, then the declarations of
its annotations. What annotations of types are linked to is settled first, since types of other
libraries may inherit them. -/
def resolveTypes (l : Library) : Except Error Library := do
  let linked := l.types.map fun (name, t) => (name, t.linkAnnotations l)
  let l := { l with types := ← Resolver.types l.getType? linked }
  let annotationTypes ← l.annotationTypes.mapM fun (name, a) => do
    return (name, { a with type := ← a.type.fill l })
  return { l with annotationTypes }

mutual

/-- Resolves the declared types of a library and of those nested in it. -/
def resolve : Library → Except Error Library
  | ⟨usage, schemas, types, traits, resourceTypes, annotationTypes, annotations, securitySchemes,
      uses, location⟩ => do
      let uses ← resolveUses uses
      resolveTypes ⟨usage, schemas, types, traits, resourceTypes, annotationTypes, annotations,
        securitySchemes, uses, location⟩

def resolveUse : Use → Except Error Use
  | .external path => .ok (.external path)
  | .loaded library => do return .loaded (← library.resolve)

def resolveUses : List (String × Use) → Except Error (List (String × Use))
  | [] => .ok []
  | (name, use) :: uses => do
      let use ← resolveUse use
      return (name, use) :: (← resolveUses uses)

end

end Library

end Raml
