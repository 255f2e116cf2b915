import Raml.Proofs.Documents.Loading
import Raml.Proofs.Traits.Kept

/-! Traits in what is read from files: a declaration is no use of another trait, and a use is a name
and nothing else.
-/

namespace Raml

open Yaml (Node)

/-- A declaration is no use of another trait, and what it uses uses nothing. -/
def Trait.PlainDeclaration (t : Trait) : Prop :=
  t.reference = "" ∧ ∀ u ∈ t.method.is, u.method.Blank

/-- All traits that a library declares are plain. -/
def Library.PlainTraits (l : Library) : Prop := ∀ entry ∈ l.traits, entry.2.PlainDeclaration

/-- A document is plain if its libraries are and its resources use nothing but names. -/
theorem Document.plainTraits_of_library {d : Document}
    (library : d.library.Throughout Library.PlainTraits)
    (resources : ∀ t ∈ resourceTraitUses d.resources, t.method.Blank)
    : d.PlainTraits where
  declared reaches _ _ member := (library _ _ reaches _ member).1
  used {path l} reaches t member := by
    rcases List.mem_append.mp member with inLibrary | inResources
    · obtain ⟨entry, declared, used⟩ := List.mem_flatMap.mp inLibrary
      exact (library _ _ reaches entry declared).2 t used
    · cases path with
      | nil => exact resources t inResources
      | cons => cases inResources

-----------------------------------------------------------------------------------------
-- Decoding
-----------------------------------------------------------------------------------------

namespace Decode

variable {node : Node}

/-- Uses of traits say nothing but a name. -/
abbrev BareUses (uses : List Trait) : Prop := ∀ t ∈ uses, t.method.Blank

/-- A use is read as a name. -/
theorem traitUse_bare (node : Node) (path : String)
    : Yields (traitUse node path) fun t => t.method.Blank := by
  unfold traitUse
  split
  · exact Yields.map fun _ _ => Method.blank_empty
  · exact Yields.map fun _ _ => Method.blank_empty
  · exact Yields.map fun _ _ => Method.blank_empty
  · exact Yields.map fun _ _ => Method.blank_empty
  · exact Yields.error _

theorem traitUses_bare (node : Node) (path : String) : Yields (traitUses node path) BareUses := by
  unfold traitUses
  split
  · exact Yields.ok nofun
  · exact Yields.mapM fun entry _ => traitUse_bare entry.1 _
  · refine Yields.bind (traitUse_bare _ path) fun t bare => Yields.ok ?_
    intro u member
    cases List.mem_singleton.mp member
    exact bare

theorem is_bare (f : Fields node) : Yields (f.orElse "is" traitUses []) BareUses :=
  orElse_yields f "is" nofun fun inner path => traitUses_bare inner.1 path

/-- What a method uses is read as names. -/
theorem methodFields_bare (f : Fields node) (ownKeys : List String)
    : Yields (methodFields f ownKeys) fun m => BareUses m.is :=
  fun m decoded => is_bare f m.is (methodFields_parts f ownKeys m decoded).1

theorem method_bare (node : Node) (path : String)
    : Yields (method node path) fun m => BareUses m.is := by
  unfold method
  split
  · exact Yields.ok nofun
  · exact Yields.skip fun f => methodFields_bare f []
  · exact Yields.error _

/-- A trait is declared without a reference, and what it uses are names. -/
theorem traitDeclaration_plain (node : Node) (path : String)
    : Yields (traitDeclaration node path) Trait.PlainDeclaration := by
  have inFile (path : String) : (Trait.inFile path).PlainDeclaration := ⟨rfl, nofun⟩
  unfold traitDeclaration
  split
  · exact Yields.ok ⟨rfl, nofun⟩
  · exact Yields.map fun path _ => inFile path
  · exact Yields.map fun path _ => inFile path
  · exact Yields.map fun path _ => inFile path
  · refine Yields.skip fun f => Yields.skip fun usage => Yields.skip fun resourcePath => ?_
    refine Yields.skip fun resourcePathName => Yields.skip fun methodName => ?_
    exact Yields.bind (methodFields_bare f traitKeys) fun method bare => Yields.ok ⟨rfl, bare⟩
  · exact Yields.error _
  · refine Yields.skip fun included => ?_
    split
    · exact Yields.ok (inFile _)
    · exact Yields.error _

theorem methods_bare (f : Fields node)
    : Yields (methods f) fun methods => ∀ entry ∈ methods, BareUses entry.2.is :=
  (methods_yields method_bare f).mono fun _ table _ member => table.2 _ _ member

/-- It is enough to look at each resource. -/
theorem bareUses_resources {resources : Resources}
    (each : ∀ key r, (key, r) ∈ resources → BareUses r.traitUses)
    : BareUses (resourceTraitUses resources) := by
  induction resources with
  | nil => exact nofun
  | cons entry resources ih =>
      obtain ⟨key, r⟩ := entry
      intro t member
      rcases List.mem_append.mp member with first | later
      · exact each key r List.mem_cons_self t first
      · exact ih (fun key r member => each key r (List.mem_cons_of_mem _ member)) t later

/-- By induction on the size of the node, with the resources below. -/
theorem resource_bare (node : Node) (path : String)
    : Yields (resource node path) fun r : Resource => BareUses r.traitUses := by
  induction size : sizeOf node using Nat.strongRecOn generalizing node path with
  | ind n ih =>
      intro r decoded
      obtain ⟨f, -, ofMethods, ofUses, ofResources⟩ := resource_parts node path r decoded
      have inside (_ : String) (inner : Inside node) (path : String)
          : Yields (resource inner.1 path) fun r : Resource => BareUses r.traitUses :=
        ih _ (size ▸ inner.2) inner.1 path rfl
      have below := collect_yields f isResourceKey inside r.resources ofResources
      obtain ⟨_, _, _, methods, is, _, _, _, resources⟩ := r
      simp only [BareUses, Resource.traitUses, List.forall_mem_append, List.forall_mem_flatMap]
      exact ⟨⟨is_bare f is ofUses, methods_bare f methods ofMethods⟩, bareUses_resources below.2⟩

/-- A library declares plain traits. -/
theorem libraryFields_plain (f : Fields node)
    : Yields (libraryFields node f) Library.PlainTraits := by
  intro l ok entry member
  obtain ⟨-, -, traits, -⟩ := libraryFields_parts f l ok
  exact (declarations_yields f "traits" traitDeclaration_plain _ traits).2 entry.1 entry.2 member

theorem resources_bare (f : Fields node)
    : Yields (resources f) fun resources => BareUses (resourceTraitUses resources) := by
  have each := collect_yields f isResourceKey fun _ inner path => resource_bare inner.1 path
  exact fun resources ok => bareUses_resources (each resources ok).2

end Decode

/-- Whatever files contain, loading them brings in nothing but plain traits. -/
theorem Library.loadable_plainTraits : Loadable PlainTraits Trait.PlainDeclaration where
  declares := Decode.libraryFields_plain
  declaration := Decode.traitDeclaration_plain
  reference plain read := ⟨plain.1, read.2⟩
  traits := id
  withTraits _ _ all _ _ := all

/-- Once the libraries of a document are loaded, its traits are as plain as they are in what is
written. -/
theorem Document.Written.plainTraits {p : Parser} {d d' : Document} (written : d.Written)
    (loads : p.Loads d d')
    : d'.PlainTraits := by
  have library := Library.loadable_plainTraits.written written loads
  obtain ⟨l, loaded, rfl⟩ := loads
  cases written with
  | document decoded directory =>
      obtain ⟨f, -, -, -, below⟩ := Decode.document_parts _ _ decoded
      exact plainTraits_of_library library (Decode.resources_bare f _ below)
  | library decoded directory => exact plainTraits_of_library library nofun

/-- Uses of traits say nothing but names until they are filled in. -/
theorem Parser.Phases.bareUses {p : Parser} {target : Target} {mediaTypes : Option (List String)}
    {d₀ d n f s d' : Document} (phases : p.Phases target mediaTypes d n f s d')
    (written : d₀.Written) (loads : p.Loads d₀ d)
    : f.BareUses target :=
  (Document.KeepsTraits.of_normalize phases.normal).trans (.of_fill phases.filled)
    |>.bare (written.plainTraits loads).bareUses

end Raml
