import Raml.Proofs.Documents.Namespaces
import Raml.Proofs.References

/-! The places of a document, node by node and library by library.
-/

namespace Raml

open Raml.TypeName (leadFrom)

-----------------------------------------------------------------------------------------
-- The places in each node
-----------------------------------------------------------------------------------------

theorem Property.sites_eq (lead : String) (p : Property)
    : p.sites lead = p.type.sites lead [.typeDeclaration] := by
  cases p
  rfl

theorem propertySites_eq (lead : String) (properties : Properties)
    : propertySites lead properties
      = properties.flatMap fun entry => entry.2.type.sites lead [.typeDeclaration] := by
  induction properties with
  | nil => rfl
  | cons entry properties ih => simp [propertySites, Property.sites_eq, ih]

/-- The places in a type: the type, its annotations, those of its examples, and the places in its
properties. -/
theorem TypeNode.sites_eq (lead : String) (targets : List Target) (t : TypeNode)
    : t.sites lead targets
      = .typeNode t :: .annotations lead targets t.declaration.annotations
        :: t.allExamples.map (fun e => .annotations lead [.example] e.annotations)
        ++ propertySites lead t.properties := by
  obtain ⟨_, ⟨_, _, _, _, _, _⟩, _, _, _, _, _, _, _, _⟩ := t
  simp [sites, properties]

theorem traitSites_eq (lead : String) (traits : List Trait)
    : traitSites lead traits = traits.flatMap (·.sites lead) := by
  induction traits with
  | nil => rfl
  | cons t traits ih => simp [traitSites, ih]

/-- The places in a trait: the trait itself, and those of a method. -/
theorem Trait.sites_eq (lead : String) (t : Trait)
    : t.sites lead = .trait lead t :: t.method.sites lead .trait := by
  cases t
  simp [sites]

/-- The places in a method, in the order of the walk. -/
theorem Method.sites_eq (lead : String) (target : Target) (m : Method)
    : m.sites lead target
      = .annotations lead [target] m.annotations :: propertySites lead m.queryParameters
        ++ propertySites lead m.headers ++ traitSites lead m.is
        ++ Bodies.sites lead .requestBody m.bodies
        ++ m.responses.flatMap fun (_, r) => r.sites lead := by
  cases m
  simp [sites]

theorem resourceSites_eq (lead : String) (resources : Resources)
    : resourceSites lead resources = resources.flatMap fun (_, r) => r.sites lead := by
  induction resources with
  | nil => rfl
  | cons entry resources ih => simp [resourceSites, ih]

/-- The places in a resource, in the order of the walk: each method is followed by the places in it.
-/
theorem Resource.sites_eq (lead : String) (r : Resource)
    : r.sites lead
      = .annotations lead [.resource] r.annotations :: propertySites lead r.uriParameters
        ++ traitSites lead r.is
        ++ r.methods.flatMap (fun (_, m) => .method m :: m.sites lead .method)
        ++ resourceSites lead r.resources := by
  cases r
  simp [sites]

-----------------------------------------------------------------------------------------
-- The places in each library
-----------------------------------------------------------------------------------------

/-- The places in a library itself, without those in the libraries that it uses. -/
def Library.ownSites (lead : String) (target : Target) (l : Library) : List Site :=
  l.types.flatMap (fun (_, t) => t.sites lead [.typeDeclaration])
    ++ l.traits.flatMap (fun (_, t) => t.sites lead)
    ++ l.annotationTypes.flatMap (fun (_, a) => a.type.sites lead [.annotationType])
    ++ [.annotations lead [target] l.annotations]

/-- What a library behind namespaces counts as: the one that they start from counts as `target`. -/
def Library.targetAt (target : Target) : List String → Target
  | [] => target
  | _ :: _ => .library

/-- The places in a document that belong to the library behind some namespaces. -/
def Document.sitesIn (target : Target) (d : Document) (path : List String) (l : Library)
    : List Site :=
  l.ownSites (leadFrom "" path) (Library.targetAt target path) ++
    match path with
    | [] => resourceSites "" d.resources ++ propertySites "" d.baseUriParameters
    | _ :: _ => []

namespace Library

variable {l : Library} {lead : String} {target : Target} {site : Site}

/-- The places in a library come before those in the libraries that it uses. -/
theorem sites_eq (lead : String) (target : Target) (l : Library)
    : l.sites lead target = l.ownSites lead target ++ useSites lead l.uses := by
  cases l
  simp [sites, ownSites]

/-- A place in libraries in use is a place in one of them, behind its namespace. -/
theorem mem_useSites_iff {uses : Uses}
    : site ∈ useSites lead uses
      ↔ ∃ name used, (name, Use.loaded used) ∈ uses
          ∧ site ∈ used.sites (lead ++ name ++ ".") .library := by
  induction uses with
  | nil => simp [useSites]
  | cons first uses ih =>
      obtain ⟨key, use⟩ := first
      rw [useSites, List.mem_append, ih]
      constructor
      · rintro (here | ⟨name, used, member, there⟩)
        · cases use with
          | external => cases here
          | loaded used => exact ⟨key, used, List.mem_cons_self, here⟩
        · exact ⟨name, used, List.mem_cons_of_mem _ member, there⟩
      · rintro ⟨name, used, member, there⟩
        rcases List.mem_cons.mp member with same | later
        · cases same
          exact Or.inl there
        · exact Or.inr ⟨name, used, later, there⟩

/-- A place is one of the library to which some namespaces lead. Only the first library of all
counts as what the walk began with. -/
theorem mem_sites_iff
    : site ∈ l.sites lead target
      ↔ ∃ path m, l.Reaches path m
          ∧ site ∈ m.ownSites (leadFrom lead path) (targetAt target path) := by
  induction l using induct generalizing lead target with
  | step l ih =>
      rw [sites_eq, List.mem_append, mem_useSites_iff]
      constructor
      · rintro (own | ⟨name, used, member, inside⟩)
        · exact ⟨[], l, .self l, own⟩
        · obtain ⟨path, m, reaches, there⟩ := (ih name used member).mp inside
          refine ⟨name :: path, m, .used member reaches, ?_⟩
          cases path <;> exact there
      · rintro ⟨_, m, ⟨⟩ | @⟨_, used, _, name, path, member, inside⟩, there⟩
        · exact Or.inl there
        · refine Or.inr ⟨name, used, member, (ih name used member).mpr ⟨path, m, inside, ?_⟩⟩
          cases path <;> exact there

end Library

/-- Every place in a document belongs to one of its libraries. -/
theorem Document.mem_sites_iff {target : Target} {d : Document} {site : Site}
    : site ∈ d.sites target
      ↔ ∃ path l, d.library.Reaches path l ∧ site ∈ d.sitesIn target path l := by
  rw [sites, List.append_assoc, List.mem_append, Library.mem_sites_iff]
  constructor
  · rintro (⟨path, l, reaches, inside⟩ | others)
    · exact ⟨path, l, reaches, List.mem_append_left _ inside⟩
    · exact ⟨[], d.library, .self _, List.mem_append_right _ others⟩
  · rintro ⟨path, l, reaches, inside⟩
    rcases List.mem_append.mp inside with own | others
    · exact Or.inl ⟨path, l, reaches, own⟩
    · cases reaches with
      | self => exact Or.inr others
      | used => cases others

end Raml
