import Raml.Proofs.Documents.Completed
import Raml.Proofs.Documents.Resolved
import Raml.Proofs.Traits.Visible

/-! Nothing is left to be resolved in what has been parsed.

Each pass settles one thing, and those after it clone, merge and add nodes. What has been settled
stays so at every place of the document, in its own library and in all others that it leads to.
-/

namespace Raml

open Raml.TypeName (leadFrom)

-----------------------------------------------------------------------------------------
-- Methods and traits among the places
-----------------------------------------------------------------------------------------

/-- The method is that of a resource or of one below it. -/
inductive Resource.HasMethod : Resource → Method → Prop where
  | own {r : Resource} {name : String} {m : Method} (h : (name, m) ∈ r.methods) : HasMethod r m
  | nested {r inner : Resource} {key : String} {m : Method} (h : (key, inner) ∈ r.resources)
      (inside : HasMethod inner m) : HasMethod r m

/-- The method is that of some resource. -/
def Document.HasMethod (d : Document) (m : Method) : Prop :=
  ∃ key r, (key, r) ∈ d.resources ∧ r.HasMethod m

/-- The trait is declared in the library behind some namespaces, or used there. -/
def Document.HasTrait (d : Document) (path : List String) (l : Library) (t : Trait) : Prop :=
  (∃ key, (key, t) ∈ l.traits) ∨ t ∈ d.traitUses path l

/-- A walk through a resource comes by its methods, at any depth. -/
theorem Resource.HasMethod.mem_sites {r : Resource} {m : Method} (has : r.HasMethod m) (lead : String)
    : .method m ∈ r.sites lead := by
  induction has with
  | own member =>
      rw [sites_eq]
      apply List.mem_append_left
      exact List.mem_append_right _ (List.mem_flatMap.mpr ⟨_, member, List.mem_cons_self⟩)
  | nested member _ ih =>
      rw [sites_eq, resourceSites_eq]
      exact List.mem_append_right _ (List.mem_flatMap.mpr ⟨_, member, ih⟩)

/-- A walk through uses of traits comes by each of them. -/
theorem mem_traitSites {uses : List Trait} {t : Trait} (h : t ∈ uses) (lead : String)
    : .trait lead t ∈ traitSites lead uses := by
  rw [traitSites_eq]
  refine List.mem_flatMap.mpr ⟨t, h, ?_⟩
  rw [t.sites_eq]
  exact List.mem_cons_self

/-- A walk through a method comes by the traits that it uses. -/
theorem Method.trait_mem_sites {m : Method} {t : Trait} (h : t ∈ m.is) (lead : String)
    (target : Target)
    : .trait lead t ∈ m.sites lead target := by
  rw [sites_eq]
  apply List.mem_append_left
  exact List.mem_append_left _ (List.mem_append_right _ (mem_traitSites h lead))

mutual

/-- A walk through a resource comes by the traits that it uses, and by those that its methods use,
by induction on the resource. -/
theorem Resource.trait_mem_sites {t : Trait} (lead : String)
    : ∀ r : Resource, t ∈ r.traitUses → .trait lead t ∈ r.sites lead
  | ⟨_, _, _, methods, is, _, _, _, resources⟩, h => by
      simp only [Resource.traitUses, List.mem_append, List.mem_flatMap] at h
      rw [Resource.sites]
      rcases h with (own | ⟨entry, member, used⟩) | below
      · apply List.mem_append_left
        exact List.mem_append_left _ (List.mem_append_right _ (mem_traitSites own lead))
      · apply List.mem_append_left
        refine List.mem_append_right _ (List.mem_flatMap.mpr ⟨entry, member, ?_⟩)
        exact List.mem_cons_of_mem _ (Method.trait_mem_sites used lead .method)
      · exact List.mem_append_right _ (resources_trait_mem_sites lead resources below)

theorem resources_trait_mem_sites {t : Trait} (lead : String)
    : ∀ resources : List (String × Resource), t ∈ resourceTraitUses resources
      → .trait lead t ∈ resourceSites lead resources
  | (_, r) :: resources, h => by
      rcases List.mem_append.mp h with first | later
      · exact List.mem_append_left _ (Resource.trait_mem_sites lead r first)
      · exact List.mem_append_right _ (resources_trait_mem_sites lead resources later)

end

namespace Document

variable {d : Document} {path : List String} {l : Library} {t : Trait} {m : Method}

/-- A walk through a document comes by all of its methods. -/
theorem HasMethod.mem_sites (has : d.HasMethod m) (target : Target) : .method m ∈ d.sites target := by
  obtain ⟨key, r, member, inside⟩ := has
  apply List.mem_append_left
  apply List.mem_append_right
  rw [resourceSites_eq]
  exact List.mem_flatMap.mpr ⟨_, member, inside.mem_sites ""⟩

/-- A walk through a document comes by all traits in its libraries, under their namespaces. -/
theorem HasTrait.mem_sites (has : d.HasTrait path l t) (reaches : d.library.Reaches path l)
    (target : Target)
    : .trait (leadFrom "" path) t ∈ d.sites target := by
  refine mem_sites_iff.mpr ⟨path, l, reaches, ?_⟩
  have declared {key : String} {declared : Trait} (member : (key, declared) ∈ l.traits)
      {site : Site} (inside : site ∈ declared.sites (leadFrom "" path))
      : site ∈ d.sitesIn target path l := by
    apply List.mem_append_left
    apply List.mem_append_left
    apply List.mem_append_left
    exact List.mem_append_right _ (List.mem_flatMap.mpr ⟨_, member, inside⟩)
  rcases has with ⟨key, member⟩ | used
  · exact declared member (by simp [t.sites_eq])
  · rcases List.mem_append.mp used with inLibrary | inResources
    · obtain ⟨⟨key, user⟩, member, used⟩ := List.mem_flatMap.mp inLibrary
      refine declared member ?_
      rw [user.sites_eq]
      exact List.mem_cons_of_mem _ (Method.trait_mem_sites used _ .trait)
    · cases path with
      | nil =>
          apply List.mem_append_right
          exact List.mem_append_left _ (resources_trait_mem_sites "" d.resources inResources)
      | cons => cases inResources

end Document

-----------------------------------------------------------------------------------------
-- The library of a document by itself
-----------------------------------------------------------------------------------------

/-- The parts of a library do not depend on where it is. -/
theorem Library.exists_spot (l : Library)
    : ∀ pos other : Position, ∀ spot ∈ l.spots pos, ∃ spot' ∈ l.spots other,
        spot'.part = spot.part := by
  induction l using induct with
  | step l ih =>
      intro pos other
      have here : ∀ spot ∈ l.spots other, spot ∈ l.spots other := fun _ member => member
      obtain ⟨types, traits, annotationTypes, -⟩ := forall_spots_iff.mp here
      refine forall_spots_iff.mpr ⟨?_, ?_, ?_, forall_mem_useSpots fun name used member => ?_⟩
      · exact fun entry member => ⟨_, types entry member, rfl⟩
      · exact fun entry member part inside => ⟨_, traits entry member part inside, rfl⟩
      · exact fun entry member => ⟨_, annotationTypes entry member, rfl⟩
      · intro spot inside
        obtain ⟨spot', inside, same⟩ := ih name used member _ (other.enter used) spot inside
        exact ⟨spot', mem_spots_of_use member inside, same⟩

namespace Document

variable {d : Document} {path : List String} {l : Library} {t : Trait}

/-- What stands in a library by itself stands in every document with that library. -/
theorem Has.of_library {t : TypeNode} (h : Document.Has { library := d.library } t) : d.Has t := by
  obtain ⟨spot, member, has⟩ := h
  have inLibrary : spot ∈ d.library.spots (position { library := d.library }) := by
    rcases List.mem_append.mp member with inside | parameters
    · simpa [resourceParts] using inside
    · cases List.mem_singleton.mp parameters
      obtain ⟨_, _, member, -⟩ := has
      cases member
  obtain ⟨spot', inside, same⟩ := d.library.exists_spot _ d.position spot inLibrary
  exact ⟨spot', List.mem_append_left _ (List.mem_append_left _ inside), same ▸ has⟩

/-- By itself, a library has no leaves but its own and those that every document has. -/
theorem mem_leaves_of_library {leaf : Leaf}
    (h : leaf ∈ Document.allLeaves { library := d.library })
    : leaf ∈ d.allLeaves ∨ leaf ∈ [.keys [], .fragment none, .keys []] := by
  simp only [allLeaves, leaves, List.map_append, List.mem_append, List.map_map] at h ⊢
  have others : Document.outerLeaves { library := d.library } = [.keys [], .fragment none, .keys []] :=
    rfl
  refine h.imp Or.inl fun inside => ?_
  simpa [Function.comp_def, others] using inside

/-- A library by itself uses no traits that a document with it does not use. -/
theorem traitUses_of_library (h : t ∈ traitUses { library := d.library } path l)
    : t ∈ d.traitUses path l := by
  rcases List.mem_append.mp h with inLibrary | inResources
  · exact List.mem_append_left _ inLibrary
  · cases path <;> cases inResources

end Document

-----------------------------------------------------------------------------------------
-- Documents
-----------------------------------------------------------------------------------------

namespace Document

/-- Nothing is left to be resolved in a document, at any depth. The copies of declarations that
annotations are linked to are no places of the document. -/
structure Settled (d : Document) : Prop where
  /-- No library is used by a path that has yet to be read. -/
  loaded {path : List String} {l : Library} (reaches : d.library.Reaches path l) : l.Loaded
  resolved {t : TypeNode} (has : d.Has t) : t.resolved = true
  typeName {name baseName : String} {isArray : Bool} {kind : Kind}
    (leaf : .typeName name baseName isArray kind ∈ d.allLeaves)
    : TypeName.splitArray name = (baseName, isArray)
  property {key name : String} (leaf : .property key name ∈ d.allLeaves) : name = key
  annotation {key : String} {a : Annotation} (leaf : .applied key a ∈ d.allLeaves)
    : a.value.isSome ∧ a.name = key ∧ a.declared.isSome
  /-- Traits are visible from the libraries in which they are used, and their uses use no others. -/
  traitUse {path : List String} {l : Library} (reaches : d.library.Reaches path l) {t : Trait}
    (used : t ∈ d.traitUses path l)
    : (t.reference ≠ "" → (l.getTrait? t.reference).isSome) ∧ t.method.is = []
  method {m : Method} (has : d.HasMethod m) : m.unexpected = []
  trait {path : List String} {l : Library} (reaches : d.library.Reaches path l) {t : Trait}
    (has : d.HasTrait path l t) : t.method.unexpected = []

/-- What is settled in a document is settled in its library by itself. -/
theorem Settled.of_library {d : Document} (h : d.Settled) : Document.Settled { library := d.library } where
  loaded reaches := h.loaded reaches
  resolved has := h.resolved has.of_library
  typeName leaf := h.typeName ((mem_leaves_of_library leaf).resolve_right (by simp))
  property leaf := h.property ((mem_leaves_of_library leaf).resolve_right (by simp))
  annotation leaf := h.annotation ((mem_leaves_of_library leaf).resolve_right (by simp))
  traitUse reaches _ used := h.traitUse reaches (traitUses_of_library used)
  method has := by
    obtain ⟨_, _, member, -⟩ := has
    cases member
  trait reaches _ has := h.trait reaches (has.imp_right traitUses_of_library)

end Document

/-- The review finds no unknown keys. -/
theorem Review.unknownKey_of_run {settings : Settings} {target : Target} {d : Document}
    (h : run settings target d = .ok ()) {site : Site} (member : site ∈ d.sites target)
    : unknownKey site = .ok () := by
  rw [run_eq] at h
  exact forM_eq_ok_iff.mp (unit_bind_eq_ok_iff.mp h).1 site member

/-- A method that is not refused has no key without a place. -/
theorem Review.unexpected_of_reject {m : Method} {node : String}
    (h : unknownKey.reject m node = .ok ())
    : m.unexpected = [] := by
  unfold unknownKey.reject at h
  split at h
  · assumption
  · cases h

namespace Parser

variable {p : Parser} {target : Target} {mediaTypes : Option (List String)} {d₀ d : Document}

/-- By the phases in turn: each of the fields has been settled in one of them and is kept by the
others. -/
theorem settled_of_resolve (written : d₀.Written) (h : p.resolve target mediaTypes d₀ = .ok d)
    : d.Settled := by
  obtain ⟨loaded, loads⟩ := exists_loads h
  obtain ⟨n, f, s, phases, reviewed⟩ := phases_of_resolve loads h
  have bare := (written.plainTraits loads).bare
  obtain ⟨retains, visible⟩ := phases.retains bare
  have complete := complete_of_resolve written h
  exact {
    loaded := by
      intro path l reaches
      obtain ⟨l₀, reached, retained⟩ := retains path l reaches
      exact retained.loaded (loads.loaded path l₀ reached)
    resolved := resolved_of_resolve written h
    typeName := by
      intro name baseName isArray kind leaf
      exact (complete _ leaf).1.1
    property := by
      intro key name leaf
      exact (complete _ leaf).1
    annotation := by
      intro key a leaf
      obtain ⟨named, value, declared⟩ := (complete _ leaf).2
      exact ⟨value, named, declared⟩
    traitUse := fun reaches t used =>
      ⟨visible _ _ reaches t used, (bare.of_retains retains).used reaches used⟩
    method := fun has =>
      Review.unexpected_of_reject (Review.unknownKey_of_run reviewed (has.mem_sites target))
    trait := fun reaches t has =>
      Review.unexpected_of_reject
        (Review.unknownKey_of_run reviewed (has.mem_sites reaches target)) }

/-- Nothing is left to be resolved in what has been parsed, whatever the settings and the files. -/
theorem settled_of_parse (p : Parser) (bytes : Bytes) (directory : Path)
    : (∀ d, p.document bytes directory = .ok d → d.Settled)
      ∧ ∀ l, p.library bytes directory = .ok l → Document.Settled { library := l } := by
  constructor
  · intro d parsed
    obtain ⟨d₀, written, resolved⟩ := resolve_of_document parsed
    exact settled_of_resolve written resolved
  · intro l parsed
    obtain ⟨d₀, d, written, resolved, same⟩ := resolve_of_library parsed
    rw [same]
    exact (settled_of_resolve written resolved).of_library

/-- A library whose traits and types refer to each other. -/
def almanacParts : Bytes :=
  Bytes.ofText <|
    "annotationTypes:\n  since: integer\n"
      ++ "uses:\n  units:\n    types:\n      Year: integer\n"
      ++ "types:\n  Month:\n    (since): 3\n    properties:\n      year?: units.Year\n"

/-- A document with the same declarations and a trait that is used. -/
def monthly : Bytes :=
  Bytes.ofText "title: Monthly\ntraits:\n  dated:\n    queryParameters:\n      month: Month\n"
    ++ almanacParts ++ Bytes.ofText "/months:\n  get:\n    is: dated\n"

/-- The trait that is used is filled in, and types refer to another library. -/
theorem settled_of_parse_monthly
    : (∃ d, ({} : Parser).document monthly ⟨"."⟩ = .ok d
        ∧ (d.traitUses [] d.library).map Trait.reference = ["dated"] ∧ d.Settled)
      ∧ ∃ l, ({} : Parser).library almanacParts ⟨"."⟩ = .ok l
        ∧ Document.Settled { library := l } := by
  constructor
  · have found : ((({} : Parser).document monthly ⟨"."⟩).toOption.any fun d =>
        (d.traitUses [] d.library).map Trait.reference = ["dated"]) = true := by
      rw [monthly, almanacParts]
      simp only [Bytes.ofText_append]
      repeat rw [Bytes.ofText_ofList]
      decide +kernel
    obtain ⟨d, parsed, used⟩ := (Option.any_eq_true _ _).mp found
    have parsed := ok_of_toOption parsed
    exact ⟨d, parsed, of_decide_eq_true used, (settled_of_parse {} monthly ⟨"."⟩).1 d parsed⟩
  · have found : (({} : Parser).library almanacParts ⟨"."⟩).toOption.isSome = true := by
      rw [almanacParts]
      simp only [Bytes.ofText_append]
      repeat rw [Bytes.ofText_ofList]
      decide +kernel
    obtain ⟨l, parsed⟩ := Option.isSome_iff_exists.mp found
    have parsed := ok_of_toOption parsed
    exact ⟨l, parsed, (settled_of_parse {} almanacParts ⟨"."⟩).2 l parsed⟩

end Parser

end Raml
