import Raml.Proofs.Documents.Files
import Raml.Proofs.Documents.Survey

/-! Traits that are declared and traits that are used, by their full names.

Passes fill in what traits declare wherever they are used, but leave the uses themselves as they
were written: the traits that stand in a document have the same names after every pass.
-/

namespace Raml

open Raml.TypeName (leadFrom)

-----------------------------------------------------------------------------------------
-- What is written
-----------------------------------------------------------------------------------------

mutual

/-- The uses of traits in a resource and in those below it: its own, and those of its methods. -/
def Resource.traitUses : Resource → List Trait
  | ⟨_, _, _, methods, is, _, _, _, resources⟩ =>
      is ++ methods.flatMap (fun (_, m) => m.is) ++ resourceTraitUses resources

def resourceTraitUses : List (String × Resource) → List Trait
  | [] => []
  | (_, r) :: resources => r.traitUses ++ resourceTraitUses resources

end

/-- The uses of traits in a library: those of the traits that it declares. -/
def Library.traitUses (l : Library) : List Trait := l.traits.flatMap fun (_, t) => t.method.is

namespace Document

/-- The uses of traits in the library behind some namespaces. The resources of a document belong to
its own library. -/
def traitUses (d : Document) (path : List String) (l : Library) : List Trait :=
  l.traitUses ++
    match path with
    | [] => resourceTraitUses d.resources
    | _ :: _ => []

/-- A trait is declared in a document or in one of its libraries, under its full name. -/
def DeclaresTrait (d : Document) (name : String) : Prop :=
  ∃ path l key, d.library.Reaches path l ∧ key ∈ Keyed.keys l.traits
    ∧ name = leadFrom "" path ++ key

/-- A trait is used in a document or in one of its libraries. Its full name is the reference as seen
from the document. -/
def UsesTrait (d : Document) (name : String) : Prop :=
  ∃ path l t, d.library.Reaches path l ∧ t ∈ d.traitUses path l ∧ t.reference ≠ ""
    ∧ name = leadFrom "" path ++ t.reference

/-- Traits as they are written: declarations do not refer to others in their own stead, and uses say
nothing but a name. -/
structure PlainTraits (d : Document) : Prop where
  declared {path : List String} {l : Library} (h : d.library.Reaches path l) {key : String}
    {t : Trait} (member : (key, t) ∈ l.traits) : t.reference = ""
  used {path : List String} {l : Library} (h : d.library.Reaches path l) {t : Trait}
    (member : t ∈ d.traitUses path l) : t.method.Blank

end Document

-----------------------------------------------------------------------------------------
-- Traits among the places of a document
-----------------------------------------------------------------------------------------

/-- The trait at a place, behind the namespaces that lead there. -/
@[simp] def Site.traits : Site → List (String × Trait)
  | .trait lead t => [(lead, t)]
  | _ => []

/-- The traits at places, in order. -/
def Site.traitsOf (sites : List Site) : List (String × Trait) := sites.flatMap traits

/-- The full names of the traits that are used, where each trait stands behind namespaces. -/
def Site.usedNames (traits : List (String × Trait)) : List String :=
  traits.flatMap fun (lead, t) => if t.reference.isEmpty then [] else [lead ++ t.reference]

/-- The names that the review collects are those of traits at the places. -/
theorem Site.usedNames_traitsOf (sites : List Site)
    : usedNames (traitsOf sites) = sites.flatMap Review.traitsUsed := by
  rw [traitsOf, usedNames, List.flatMap_assoc]
  congr
  funext site
  cases site <;> simp [traits, Review.traitsUsed]

@[simp] theorem Site.traitsOf_nil : traitsOf [] = [] := rfl

@[simp] theorem Site.traitsOf_append (a b : List Site)
    : traitsOf (a ++ b) = traitsOf a ++ traitsOf b := by
  simp [traitsOf]

@[simp] theorem Site.traitsOf_flatMap {α : Type} (list : List α) (places : α → List Site)
    : traitsOf (list.flatMap places) = list.flatMap fun a => traitsOf (places a) := by
  simp [traitsOf, List.flatMap_assoc]

/-- Where no part has traits, the whole has none. -/
theorem Site.traitsOf_flatMap_eq_nil {α : Type} {list : List α} {places : α → List Site}
    (none : ∀ a, traitsOf (places a) = [])
    : traitsOf (list.flatMap places) = [] := by
  simp [none]

@[simp] theorem Site.traitsOf_cons (site : Site) (sites : List Site)
    : traitsOf (site :: sites) = site.traits ++ traitsOf sites :=
  rfl

/-- No trait stands in a type. -/
@[simp] theorem TypeNode.traitsOf_sites (lead : String) (targets : List Target) (t : TypeNode)
    : Site.traitsOf (t.sites lead targets) = [] := by
  induction t using TypeNode.induct generalizing targets with
  | step t ih =>
      have properties : Site.traitsOf (propertySites lead t.properties) = [] := by
        rw [propertySites_eq, Site.traitsOf_flatMap, List.flatMap_eq_nil_iff]
        intro entry member
        exact ih entry.1 entry.2 member _
      rw [sites_eq, Site.traitsOf_append, properties]
      simp [Site.traitsOf, List.flatMap_map]

/-- There are no traits in properties. -/
@[simp] theorem Properties.traitsOf_sites (lead : String) (properties : Properties)
    : Site.traitsOf (propertySites lead properties) = [] := by
  simp [propertySites_eq]

/-- There are no traits in bodies. -/
@[simp] theorem Bodies.traitsOf_sites (lead : String) (site : Target) (bodies : Bodies)
    : Site.traitsOf (Bodies.sites lead site bodies) = [] := by
  simp [Bodies.sites]

/-- There are no traits in responses. -/
@[simp] theorem Response.traitsOf_sites (lead : String) (r : Response)
    : Site.traitsOf (r.sites lead) = [] := by
  simp [Response.sites]

/-- The traits in a method are those that it uses. -/
@[simp] theorem Method.traitsOf_sites (lead : String) (target : Target) (m : Method)
    : Site.traitsOf (m.sites lead target) = Site.traitsOf (traitSites lead m.is) := by
  simp [sites_eq]

/-- A trait comes before those that it uses. -/
@[simp] theorem Trait.traitsOf_sites (lead : String) (t : Trait)
    : Site.traitsOf (t.sites lead) = (lead, t) :: Site.traitsOf (traitSites lead t.method.is) := by
  simp [sites_eq]

/-- Uses that use no traits themselves are all that there is in them. -/
theorem traitsOf_traitSites (lead : String) {uses : List Trait} (bare : ∀ t ∈ uses, t.method.is = [])
    : Site.traitsOf (traitSites lead uses) = uses.map fun t => (lead, t) := by
  induction uses with
  | nil => rfl
  | cons t uses ih =>
      obtain ⟨first, rest⟩ := List.forall_mem_cons.mp bare
      simp [traitSites, first, ih rest]

mutual

/-- The traits in a resource are those that it or a method uses. -/
theorem Resource.traitsOf_sites (lead : String)
    : ∀ r : Resource, (∀ t ∈ r.traitUses, t.method.is = [])
      → Site.traitsOf (r.sites lead) = r.traitUses.map fun t => (lead, t)
  | ⟨_, _, _, methods, is, _, _, _, resources⟩, bare => by
      simp only [Resource.traitUses, List.forall_mem_append, List.forall_mem_flatMap] at bare
      obtain ⟨⟨own, ofMethods⟩, below⟩ := bare
      have inMethods : (methods.flatMap fun entry => Site.traitsOf (traitSites lead entry.2.is))
          = (methods.flatMap fun entry => entry.2.is).map fun t => (lead, t) := by
        rw [List.map_flatMap]
        exact List.flatMap_congr fun entry member => traitsOf_traitSites lead (ofMethods entry member)
      rw [Resource.sites, Resource.traitUses]
      simp [traitsOf_traitSites lead own, resources_traitsOf_sites lead resources below, inMethods]

/-- Where uses use nothing, the traits in resources are their uses, in order. -/
theorem resources_traitsOf_sites (lead : String)
    : ∀ resources : List (String × Resource), (∀ t ∈ resourceTraitUses resources, t.method.is = [])
      → Site.traitsOf (resourceSites lead resources)
        = (resourceTraitUses resources).map fun t => (lead, t)
  | [], _ => rfl
  | (_, r) :: resources, bare => by
      obtain ⟨first, rest⟩ := List.forall_mem_append.mp bare
      rw [resourceSites, resourceTraitUses]
      simp [Resource.traitsOf_sites lead r first, resources_traitsOf_sites lead resources rest]

end

/-- The traits in a library by itself are those that it declares, and their uses. -/
theorem Library.traitsOf_ownSites (lead : String) (target : Target) (l : Library)
    : Site.traitsOf (l.ownSites lead target)
      = l.traits.flatMap fun entry => Site.traitsOf (entry.2.sites lead) := by
  have types : Site.traitsOf (l.types.flatMap fun entry => entry.2.sites lead [.typeDeclaration])
      = [] :=
    Site.traitsOf_flatMap_eq_nil fun entry => entry.2.traitsOf_sites _ _
  have annotationTypes : Site.traitsOf
      (l.annotationTypes.flatMap fun entry => entry.2.type.sites lead [.annotationType]) = [] :=
    Site.traitsOf_flatMap_eq_nil fun entry => entry.2.type.traitsOf_sites _ _
  rw [ownSites, Site.traitsOf_append, Site.traitsOf_append, Site.traitsOf_append, types,
    annotationTypes, Site.traitsOf_flatMap]
  simp

/-- The traits in a library are those that it declares, and what they use. -/
theorem Library.mem_traitsOf_ownSites_iff {l : Library} (bare : ∀ t ∈ l.traitUses, t.method.is = [])
    {lead other : String} {target : Target} {t : Trait}
    : (other, t) ∈ Site.traitsOf (l.ownSites lead target)
      ↔ other = lead ∧ ((∃ key, (key, t) ∈ l.traits) ∨ t ∈ l.traitUses) := by
  have inside : ∀ entry ∈ l.traits, Site.traitsOf (traitSites lead entry.2.method.is)
      = entry.2.method.is.map fun t => (lead, t) := by
    intro entry member
    apply traitsOf_traitSites
    intro t used
    exact bare t (List.mem_flatMap.mpr ⟨entry, member, used⟩)
  simp only [traitsOf_ownSites, Trait.traitsOf_sites, List.mem_flatMap, traitUses]
  constructor
  · rintro ⟨⟨key, declared⟩, member, stands⟩
    rcases List.mem_cons.mp stands with same | used
    · cases same
      exact ⟨rfl, Or.inl ⟨key, member⟩⟩
    · rw [inside _ member] at used
      obtain ⟨t, used, same⟩ := List.mem_map.mp used
      cases same
      exact ⟨rfl, Or.inr ⟨(key, declared), member, used⟩⟩
  · rintro ⟨rfl, ⟨key, member⟩ | ⟨entry, member, used⟩⟩
    · exact ⟨(key, t), member, List.mem_cons_self⟩
    · refine ⟨entry, member, List.mem_cons_of_mem _ ?_⟩
      rw [inside _ member]
      exact List.mem_map_of_mem used

namespace Document

variable {d : Document} {target : Target}

/-- The traits that stand in a document are declared, or they are written as uses. -/
theorem mem_traitsOf_iff {path : List String} {l : Library}
    (bare : ∀ t ∈ d.traitUses path l, t.method.is = []) (reaches : d.library.Reaches path l)
    {lead : String} {t : Trait}
    : (lead, t) ∈ Site.traitsOf (d.sitesIn target path l)
      ↔ lead = leadFrom "" path ∧ ((∃ key, (key, t) ∈ l.traits) ∨ t ∈ d.traitUses path l) := by
  have own : ∀ t ∈ l.traitUses, t.method.is = [] := fun t inside =>
    bare t (List.mem_append_left _ inside)
  unfold sitesIn traitUses
  rw [Site.traitsOf_append, List.mem_append, Library.mem_traitsOf_ownSites_iff own,
    List.mem_append]
  cases reaches with
  | used => simp
  | self =>
      have resources : Site.traitsOf (resourceSites "" d.resources)
          = (resourceTraitUses d.resources).map fun t => ("", t) := by
        apply resources_traitsOf_sites
        exact fun t inside => bare t (List.mem_append_right _ inside)
      simp only [Site.traitsOf_append, resources, Properties.traitsOf_sites, List.append_nil,
        List.mem_map, Prod.mk.injEq]
      constructor
      · rintro (⟨rfl, declared | used⟩ | ⟨t, used, rfl, rfl⟩)
        · exact ⟨rfl, Or.inl declared⟩
        · exact ⟨rfl, Or.inr (Or.inl used)⟩
        · exact ⟨rfl, Or.inr (Or.inr used)⟩
      · rintro ⟨rfl, declared | used | used⟩
        · exact Or.inl ⟨rfl, Or.inl declared⟩
        · exact Or.inl ⟨rfl, Or.inr used⟩
        · exact Or.inr ⟨t, used, rfl, rfl⟩

/-- The traits of plain documents are those that are declared and those that are used. -/
theorem PlainTraits.mem_traitsOf_iff (plain : d.PlainTraits) {path : List String} {l : Library}
    (reaches : d.library.Reaches path l) {lead : String} {t : Trait}
    : (lead, t) ∈ Site.traitsOf (d.sitesIn target path l)
      ↔ lead = leadFrom "" path ∧ ((∃ key, (key, t) ∈ l.traits) ∨ t ∈ d.traitUses path l) :=
  Document.mem_traitsOf_iff (fun _ used => (plain.used reaches used).is) reaches

end Document

end Raml
