import Raml.Proofs.Documents.Decoded
import Raml.Proofs.Documents.Loading

/-! What is loaded is sound at every leaf, whatever the files contain.
-/

namespace Raml

open Yaml (Node)

open Rules

/-- What holds of the leaves of each library itself holds of all leaves. -/
theorem Rules.all_of_throughout {R : Rules} {l : Library} (h : l.Throughout R.OfLibrary)
    : R.All l.allLeaves := by
  induction l using Library.induct with
  | step l ih =>
      exact all_library.mpr ⟨h.own, fun name used member => ih name used member (h.used member)⟩

namespace Decode

/-- A library that is decoded is sound, with all that is written in it. -/
theorem library_sound (node : Node) (path : String)
    : Yields (library node path) fun l => written.All l.allLeaves := fun l decoded =>
  all_of_throughout (library_throughout libraryFields_sound node path l decoded)

/-- So is a document, outside its library too. -/
theorem document_sound (node : Node) : Yields (document node) fun d => written.All d.allLeaves := by
  refine Yields.skip fun f => Yields.skip fun title => Yields.skip fun description => ?_
  refine Yields.skip fun version => Yields.skip fun baseUri => ?_
  refine Yields.bind (propertiesField_sound f _) fun parameters ofParameters => ?_
  refine Yields.skip fun protocols => Yields.skip fun mediaType => ?_
  refine Yields.bind (fragmentField_sound f _) fun securedBy ofSecuredBy => ?_
  refine Yields.skip fun documentation => ?_
  have library := libraryFields_throughout libraryFields_sound f fun inner path =>
    uses_throughout libraryFields_sound inner.1 path
  refine Yields.bind library fun library throughout => ?_
  refine Yields.bind (resources_sound f) fun resources ofResources => Yields.ok ?_
  exact all_document.mpr ⟨all_of_throughout throughout, ofParameters, ofSecuredBy, ofResources⟩

end Decode

/-- What is written in a document is sound. -/
theorem Document.Written.sound {d : Document} (h : d.Written) : written.All d.allLeaves := by
  cases h with
  | @document node d decoded directory =>
      have parts := all_document.mp (Decode.document_sound node d decoded)
      exact all_document.mpr ⟨parts.library, parts.baseUriParameters, parts.securedBy,
        parts.resources⟩
  | @library node l decoded directory =>
      exact all_document.mpr ⟨Decode.library_sound node "" l decoded, ofProperties_nil, nofun,
        all_resources.mpr ⟨List.nodup_nil, nofun⟩⟩

-----------------------------------------------------------------------------------------
-- Loading
-----------------------------------------------------------------------------------------

namespace Library

variable {settings : Settings} {source : Source} {file : Path → String → Except Error Library}

/-- A trait from a file is decoded like one in place. -/
theorem load_trait_sound (directory : Path) {t : Trait} (h : written.All t.leaves)
    : Yields (Trait.load settings source directory t) fun t => written.All t.leaves := by
  unfold Trait.load
  split
  · exact Yields.ok h
  · refine Yields.skip fun bytes => Yields.skip fun node => ?_
    refine Yields.bind (Decode.traitDeclaration_sound node _) fun loaded sound => Yields.ok ?_
    have method : written.OfMethod loaded.method := all_trait.mp sound
    exact all_trait.mpr method

/-- The libraries that are used are loaded one by one. -/
theorem loadUses_eq (load : Path → Trait → Except Error Trait) (directory : Path) (uses : Uses)
    : loadUses load file directory uses
      = uses.mapM fun (name, use) => do return (name, ← loadUse load file directory use) := by
  induction uses with
  | nil => rfl
  | cons entry uses ih =>
      rw [List.mapM_cons, loadUses, ih, bind_assoc]
      rfl

/-- Where files are sound, the libraries that are used are. -/
theorem loadUses_sound {load : Path → Trait → Except Error Trait}
    (files : ∀ directory path, Yields (file directory path) fun l => written.All l.allLeaves)
    (directory : Path) {uses : Uses}
    (each : ∀ name used, (name, Use.loaded used) ∈ uses → ∀ directory,
      Yields (used.loadWith load file directory) fun l => written.All l.allLeaves)
    : Yields (loadUses load file directory uses) fun uses' =>
        Keyed.keys uses' = Keyed.keys uses
          ∧ ∀ name used, (name, Use.loaded used) ∈ uses' → written.All used.allLeaves := by
  rw [loadUses_eq]
  refine all_mapUses (f := fun _ => loadUse load file directory) fun name use member => ?_
  cases use with
  | external path =>
      refine Yields.bind (files directory path) fun used sound => Yields.ok ?_
      rintro _ ⟨⟩
      exact sound
  | loaded used =>
      refine Yields.bind (each name used member _) fun used sound => Yields.ok ?_
      rintro _ ⟨⟩
      exact sound

/-- By induction on what is written in place. -/
theorem loadWith_sound
    (files : ∀ directory path, Yields (file directory path) fun l => written.All l.allLeaves)
    {l : Library} (h : written.All l.allLeaves) (directory : Path)
    : Yields (l.loadWith (Trait.load settings source) file directory) fun l =>
        written.All l.allLeaves := by
  induction l using induct generalizing directory with
  | step l ih =>
      obtain ⟨own, used⟩ := all_library.mp h
      have traits := all_mapM (f := Trait.load settings source directory) own.traits
        fun entry _ sound => load_trait_sound directory sound
      have uses := loadUses_sound files directory
        fun name m member => ih name m member (used name m member)
      rw [loadWith_eq]
      refine Yields.bind traits fun traits ofTraits => ?_
      refine Yields.bind uses fun uses ⟨keys, all⟩ => Yields.ok ?_
      exact all_library.mpr ⟨{ own with traits := ofTraits, uses := keys ▸ own.uses }, all⟩

/-- A library that is read from a file is as sound as the one that was written there. -/
theorem read_sound (path : Path)
    : Yields (read settings source path) fun l => written.All l.allLeaves := by
  refine Yields.skip fun bytes => Yields.skip fun node => ?_
  refine Yields.bind (Decode.library_sound node "") fun l sound => Yields.ok ?_
  obtain ⟨own, used⟩ := all_library.mp sound
  exact all_library.mpr ⟨⟨own.schemas, own.types, own.traits, own.resourceTypes,
    own.annotationTypes, own.annotations, own.securitySchemes, own.uses⟩, used⟩

/-- By induction on the number of files that may still name each other. -/
theorem loadFile_sound (depth : Nat) (directory : Path) (file : String)
    : Yields (loadFile settings source depth directory file) fun l => written.All l.allLeaves := by
  induction depth generalizing directory file with
  | zero => exact Yields.error _
  | succ depth ih =>
      refine Yields.bind (Yields.mapError (read_sound _)) fun l sound => ?_
      exact loadWith_sound ih sound _

end Library

/-- Once the libraries of a document are loaded, what is written in all of them is sound. -/
theorem Document.Written.sound_of_loads {p : Parser} {d d' : Document} (h : d.Written)
    (loads : p.Loads d d')
    : written.All d'.allLeaves := by
  obtain ⟨library, loaded, rfl⟩ := loads
  have parts := all_document.mp h.sound
  have sound := Library.loadWith_sound (Library.loadFile_sound _) parts.library _ _ loaded
  exact all_document.mpr { parts with library := sound }

end Raml
