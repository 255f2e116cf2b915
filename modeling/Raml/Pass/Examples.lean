import Raml.ExampleValue
import Raml.Pass

/-! The pass that reads examples from their files and derives those that are missing. -/

namespace Raml

namespace Library

mutual

/-- Reads the examples of declared types from their files, relative to the directory of the library
that declares them; `directory` is the one that counts where a library has none. -/
def materialize (source : Source) (directory : Path) : Library → Except Error Library
  | ⟨usage, schemas, types, traits, resourceTypes, annotationTypes, annotations, securitySchemes,
      uses, location⟩ => do
      let directory := location.getD directory
      let load := source.include directory
      let types ← types.mapM fun (name, t) => do return (name, ← t.materialize load)
      let uses ← materializeUses source directory uses
      return ⟨usage, schemas, types, traits, resourceTypes, annotationTypes, annotations,
        securitySchemes, uses, location⟩

def materializeUse (source : Source) (directory : Path) : Use → Except Error Use
  | .external path => .ok (.external path)
  | .loaded library => do return .loaded (← materialize source directory library)

def materializeUses (source : Source) (directory : Path)
    : List (String × Use) → Except Error (List (String × Use))
  | [] => .ok []
  | (name, use) :: uses => do
      let use ← materializeUse source directory use
      return (name, use) :: (← materializeUses source directory uses)

end

end Library

namespace Pass

/-- Reads the examples of a type and adds the one that it derives. -/
def exampleOf (source : Source) (scope : Scope) (t : TypeNode) : Except Error TypeNode := do
  let load := source.include scope.directory
  let t ← t.materialize load
  return (← t.addDerived load scope.library.getType? scope.library.typeNames).1

/-- Examples are read from their files, and types without any take the one that they derive. The
examples of declared types have been read. -/
def fillExamples (source : Source) : Pass :=
  ofHooks fun scope => { node := exampleOf source scope }

end Pass

end Raml
