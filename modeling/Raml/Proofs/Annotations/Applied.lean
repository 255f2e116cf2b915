import Raml.Proofs.Documents.Sites

/-! Annotations among the places of a document, each with what its place counts as.

Which namespaces lead to a place only matters to the full names of annotations. All places of one
library are behind the same namespaces.
-/

namespace Raml

open Raml.TypeName (leadFrom)

-----------------------------------------------------------------------------------------
-- Places
-----------------------------------------------------------------------------------------

namespace Site

/-- The annotations at a place. -/
@[simp] def applied : Site → List (List Target × Annotation)
  | .annotations _ targets given => given.map fun (_, a) => (targets, a)
  | _ => []

/-- The annotations at places, in order. -/
def appliedOf (sites : List Site) : List (List Target × Annotation) := sites.flatMap applied

@[simp] theorem appliedOf_nil : appliedOf [] = [] := rfl

@[simp] theorem appliedOf_cons (site : Site) (sites : List Site)
    : appliedOf (site :: sites) = site.applied ++ appliedOf sites :=
  rfl

@[simp] theorem appliedOf_append (a b : List Site)
    : appliedOf (a ++ b) = appliedOf a ++ appliedOf b := by
  simp [appliedOf]

@[simp] theorem appliedOf_flatMap {α : Type} (list : List α) (places : α → List Site)
    : appliedOf (list.flatMap places) = list.flatMap fun a => appliedOf (places a) := by
  simp [appliedOf, List.flatMap_assoc]

@[simp] theorem appliedOf_map {α : Type} (list : List α) (place : α → Site)
    : appliedOf (list.map place) = list.flatMap fun a => (place a).applied := by
  simp [appliedOf, List.flatMap_map]

/-- The same place behind other namespaces. -/
@[simp] def withLead (lead : String) : Site → Site
  | .typeNode t => .typeNode t
  | .annotations _ targets given => .annotations lead targets given
  | .trait _ t => .trait lead t
  | .method m => .method m

@[simp] theorem applied_withLead (lead : String) (site : Site)
    : (site.withLead lead).applied = site.applied := by
  cases site <;> rfl

/-- The names that are used at a place are those of its annotations, as seen through the namespaces
that lead there. -/
theorem annotationsUsed_withLead (lead : String) (site : Site)
    : Review.annotationsUsed (site.withLead lead)
      = site.applied.map fun (_, a) => lead ++ a.name := by
  cases site <;> simp [Review.annotationsUsed]

/-- Only the last lead counts, since a lead is set and not added to. -/
theorem withLead_withLead (lead other : String) (site : Site)
    : (site.withLead other).withLead lead = site.withLead lead := by
  cases site <;> rfl

/-- Places that have a lead keep it if they are given the same one again. -/
theorem map_withLead_of_eq {lead : String} {sites others : List Site}
    (h : sites = others.map (withLead lead))
    : sites.map (withLead lead) = sites := by
  rw [h, List.map_map]
  exact List.map_congr_left fun site _ => withLead_withLead lead lead site

/-- Which namespaces lead to places makes no difference to the annotations there. -/
theorem appliedOf_withLead (lead : String) (sites : List Site)
    : appliedOf (sites.map (withLead lead)) = appliedOf sites := by
  rw [appliedOf, List.flatMap_map]
  exact List.flatMap_congr fun site _ => site.applied_withLead lead

end Site

-----------------------------------------------------------------------------------------
-- Namespaces of places
-----------------------------------------------------------------------------------------

section Leads

variable (lead : String)

/-- The places of a type are listed for any lead as for none, and then given that lead. So it is for
all parts of a document, from types up to libraries. -/
theorem TypeNode.sites_withLead (targets : List Target) (t : TypeNode)
    : t.sites lead targets = (t.sites "" targets).map (Site.withLead lead) := by
  induction t using TypeNode.induct generalizing targets with
  | step t ih =>
      have properties : propertySites lead t.properties
          = (propertySites "" t.properties).map (Site.withLead lead) := by
        rw [propertySites_eq, propertySites_eq, List.map_flatMap]
        exact List.flatMap_congr fun entry member => ih entry.1 entry.2 member _
      rw [sites_eq, sites_eq, properties]
      simp [Function.comp_def]

theorem Properties.sites_withLead (properties : Properties)
    : propertySites lead properties
      = (propertySites "" properties).map (Site.withLead lead) := by
  rw [propertySites_eq, propertySites_eq, List.map_flatMap]
  exact List.flatMap_congr fun entry _ => entry.2.type.sites_withLead lead _

theorem Bodies.sites_withLead (site : Target) (bodies : Bodies)
    : Bodies.sites lead site bodies = (Bodies.sites "" site bodies).map (Site.withLead lead) := by
  rw [Bodies.sites, Bodies.sites, List.map_flatMap]
  exact List.flatMap_congr fun entry _ => entry.2.sites_withLead lead _

theorem Response.sites_withLead (r : Response)
    : r.sites lead = (r.sites "").map (Site.withLead lead) := by
  rw [Response.sites, Response.sites, Properties.sites_withLead, Bodies.sites_withLead]
  simp

mutual

/-- By induction on the method, whose traits have methods of their own. -/
theorem Method.sites_withLead (target : Target)
    : ∀ m : Method, m.sites lead target = (m.sites "" target).map (Site.withLead lead)
  | ⟨_, _, _, queryParameters, headers, _, responses, bodies, _, is, _, _⟩ => by
      have responses : (responses.flatMap fun entry => entry.2.sites lead)
          = (responses.flatMap fun entry => entry.2.sites "").map (Site.withLead lead) := by
        rw [List.map_flatMap]
        exact List.flatMap_congr fun entry _ => entry.2.sites_withLead lead
      simp only [Method.sites, responses, Properties.sites_withLead lead queryParameters,
        Properties.sites_withLead lead headers, traitSites_withLead is,
        Bodies.sites_withLead lead .requestBody bodies]
      simp

theorem Trait.sites_withLead
    : ∀ t : Trait, t.sites lead = (t.sites "").map (Site.withLead lead)
  | ⟨_, method, _, _, _, _, _⟩ => by
      rw [Trait.sites, Trait.sites, Method.sites_withLead .trait method]
      simp

theorem traitSites_withLead
    : ∀ traits : List Trait,
      traitSites lead traits = (traitSites "" traits).map (Site.withLead lead)
  | [] => rfl
  | t :: traits => by
      rw [traitSites, traitSites, Trait.sites_withLead t, traitSites_withLead traits,
        List.map_append]

end

mutual

theorem Resource.sites_withLead
    : ∀ r : Resource, r.sites lead = (r.sites "").map (Site.withLead lead)
  | ⟨_, _, _, methods, is, _, _, uriParameters, resources⟩ => by
      have methods : (methods.flatMap fun entry => .method entry.2 :: entry.2.sites lead .method)
          = (methods.flatMap fun entry => .method entry.2 :: entry.2.sites "" .method).map
              (Site.withLead lead) := by
        rw [List.map_flatMap]
        exact List.flatMap_congr fun entry _ =>
          congrArg (_ :: ·) (entry.2.sites_withLead lead .method)
      simp only [Resource.sites, methods, Properties.sites_withLead lead uriParameters,
        traitSites_withLead lead is, resourceSites_withLead resources]
      simp

theorem resourceSites_withLead
    : ∀ resources : List (String × Resource),
      resourceSites lead resources = (resourceSites "" resources).map (Site.withLead lead)
  | [] => rfl
  | (_, r) :: resources => by
      rw [resourceSites, resourceSites, Resource.sites_withLead r,
        resourceSites_withLead resources, List.map_append]

end

/-- The places of a library itself differ only in what leads to them. -/
theorem Library.ownSites_withLead (target : Target) (l : Library)
    : l.ownSites lead target = (l.ownSites "" target).map (Site.withLead lead) := by
  have types : (l.types.flatMap fun entry => entry.2.sites lead [.typeDeclaration])
      = (l.types.flatMap fun entry => entry.2.sites "" [.typeDeclaration]).map
          (Site.withLead lead) := by
    rw [List.map_flatMap]
    exact List.flatMap_congr fun entry _ => entry.2.sites_withLead lead _
  have traits : (l.traits.flatMap fun entry => entry.2.sites lead)
      = (l.traits.flatMap fun entry => entry.2.sites "").map (Site.withLead lead) := by
    rw [List.map_flatMap]
    exact List.flatMap_congr fun entry _ => entry.2.sites_withLead lead
  have annotationTypes
      : (l.annotationTypes.flatMap fun entry => entry.2.type.sites lead [.annotationType])
        = (l.annotationTypes.flatMap fun entry => entry.2.type.sites "" [.annotationType]).map
            (Site.withLead lead) := by
    rw [List.map_flatMap]
    exact List.flatMap_congr fun entry _ => entry.2.type.sites_withLead lead _
  simp only [Library.ownSites, types, traits, annotationTypes]
  simp

end Leads

-----------------------------------------------------------------------------------------
-- Documents
-----------------------------------------------------------------------------------------

namespace Document

variable {target : Target} {d : Document} {path : List String} {l : Library}

/-- An annotation stands in the library behind some namespaces, at a place that counts as any of
some targets. -/
structure Applies (target : Target) (d : Document) (path : List String) (l : Library)
    (targets : List Target) (a : Annotation) : Prop where
  reaches : d.library.Reaches path l
  member : (targets, a) ∈ Site.appliedOf (d.sitesIn target path l)

/-- What stands in a library itself stands in the document. -/
theorem Applies.of_own {here : List Target} {a : Annotation} (reaches : d.library.Reaches path l)
    (member : (here, a) ∈ Site.appliedOf (l.ownSites "" (Library.targetAt target path)))
    : d.Applies target path l here a := by
  refine ⟨reaches, ?_⟩
  unfold sitesIn
  rw [Site.appliedOf_append, Library.ownSites_withLead, Site.appliedOf_withLead]
  exact List.mem_append_left _ member

/-- All annotations in a document, each with the library that it stands in. -/
def applied (target : Target) (d : Document) : List (Library × List Target × Annotation) :=
  (Site.appliedOf (d.sitesIn target [] d.library)).map (d.library, ·)
    ++ d.library.nested.flatMap fun (_, l) => (Site.appliedOf (l.ownSites "" .library)).map (l, ·)

/-- The list of annotations holds what stands behind any chain of namespaces, and nothing else. -/
theorem mem_applied_iff {here : List Target} {a : Annotation}
    : (l, here, a) ∈ d.applied target ↔ ∃ path, d.Applies target path l here a := by
  have behind (name : String) (path : List String)
      : Site.appliedOf (d.sitesIn target (name :: path) l)
        = Site.appliedOf (l.ownSites "" .library) := by
    unfold sitesIn
    rw [List.append_nil, Library.ownSites_withLead, Site.appliedOf_withLead]
    rfl
  simp only [applied, List.mem_append, List.mem_map, List.mem_flatMap]
  constructor
  · intro member
    rcases member with ⟨x, member, same⟩ | ⟨⟨lead, m⟩, nested, x, member, same⟩
    · cases same
      exact ⟨[], .self _, member⟩
    · cases same
      obtain ⟨name, path, reaches, -⟩ := Library.mem_nestedFrom_iff.mp nested
      exact ⟨name :: path, reaches, behind name path ▸ member⟩
  · rintro ⟨path, reaches, member⟩
    cases path with
    | nil =>
        cases reaches
        exact Or.inl ⟨_, member, rfl⟩
    | cons name path =>
        have nested : (leadFrom "" (name :: path), l) ∈ d.library.nested :=
          Library.mem_nestedFrom_iff.mpr ⟨name, path, reaches, rfl⟩
        exact Or.inr ⟨_, nested, _, behind name path ▸ member, rfl⟩

/-- The full names of annotations are made of the namespaces that lead to the places. -/
theorem annotationsUsed_sitesIn (target : Target) (d : Document) (path : List String) (l : Library)
    : (d.sitesIn target path l).flatMap Review.annotationsUsed
      = (Site.appliedOf (d.sitesIn target path l)).map fun (_, a) => leadFrom "" path ++ a.name := by
  have behind : (d.sitesIn target path l).map (Site.withLead (leadFrom "" path))
      = d.sitesIn target path l := by
    unfold sitesIn
    rw [List.map_append, Site.map_withLead_of_eq (Library.ownSites_withLead _ _ l)]
    cases path with
    | cons => rfl
    | nil =>
        show _ ++ List.map (Site.withLead "") _ = _
        rw [List.map_append, Site.map_withLead_of_eq (resourceSites_withLead "" _),
          Site.map_withLead_of_eq (Properties.sites_withLead "" _)]
  rw [← behind, List.flatMap_map, Site.appliedOf_withLead, Site.appliedOf, List.map_flatMap]
  exact List.flatMap_congr fun site _ => site.annotationsUsed_withLead _

end Document

end Raml
