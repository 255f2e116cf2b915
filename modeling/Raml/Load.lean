import Raml.Decode.Documents
import Raml.Reading

/-! Loading the libraries and traits that a document names by the paths of their files. -/

namespace Raml

/-- Reads the file at a path. -/
def Source.readFile (source : Source) (path : Path) : Except Error Bytes :=
  (source.read path).mapError (.io path)

/-- The declaration of a trait in the file that it names. Names are relative to a directory. -/
def Trait.load (settings : Settings) (source : Source) (directory : Path) (t : Trait)
    : Except Error Trait :=
  match t.source with
  | none => .ok t
  | some file => do
      let bytes ← source.readFile (directory.join ⟨file⟩)
      let loaded ← Decode.traitDeclaration (← settings.readNode bytes) file
      return { loaded with reference := t.reference }

namespace Library

/-- Reads the library in a file. -/
def read (settings : Settings) (source : Source) (path : Path) : Except Error Library := do
  let bytes ← source.readFile path
  let library ← Decode.library (← settings.readNode bytes) ""
  return { library with location := path.parent? }

mutual

/-- Loads what a library names, given the directory that paths start from: traits by `trait`, and
libraries by `file`. -/
def loadWith (trait : Path → Trait → Except Error Trait)
    (file : Path → String → Except Error Library) (directory : Path)
    : Library → Except Error Library
  | ⟨usage, schemas, types, traits, resourceTypes, annotationTypes, annotations, securitySchemes,
      uses, location⟩ => do
      let traits ← traits.mapM fun (name, t) => do return (name, ← trait directory t)
      let uses ← loadUses trait file directory uses
      return ⟨usage, schemas, types, traits, resourceTypes, annotationTypes, annotations,
        securitySchemes, uses, location⟩

def loadUse (trait : Path → Trait → Except Error Trait)
    (file : Path → String → Except Error Library) (directory : Path)
    : Use → Except Error Use
  | .external path => do return .loaded (← file directory path)
  | .loaded library => do
      return .loaded (← loadWith trait file (library.location.getD directory) library)

def loadUses (trait : Path → Trait → Except Error Trait)
    (file : Path → String → Except Error Library) (directory : Path)
    : List (String × Use) → Except Error (List (String × Use))
  | [] => .ok []
  | (name, use) :: uses => do
      let use ← loadUse trait file directory use
      return (name, use) :: (← loadUses trait file directory uses)

end

/-- The library in the file that a path names as seen from a directory, with what it names itself,
through at most `depth` files that name each other. -/
def loadFile (settings : Settings) (source : Source) (depth : Nat) (directory : Path)
    (file : String) : Except Error Library :=
  let path := directory.join ⟨file⟩
  match depth with
  | 0 => .error (.endlessUse path)
  | depth + 1 => do
      let library ← (read settings source path).mapError (.libraryLoad path)
      library.loadWith (Trait.load settings source) (loadFile settings source depth)
        (library.location.getD directory)

/-- Loads what a library names. Files that name each other without end are more than there are. -/
def load (settings : Settings) (source : Source) (directory : Path) (library : Library)
    : Except Error Library :=
  library.loadWith (Trait.load settings source)
    (loadFile settings source (source.fileCount + 1)) directory

end Library

end Raml
