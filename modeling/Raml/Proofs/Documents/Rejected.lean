import Raml.Proofs.Documents.Unexpected

/-! The review fails for a key exactly where some method or the declaration of some trait has a key
without a place in it.

The review comes by the methods of resources and by all traits. Those that are used have been copied
from declarations, so none of them has a key that no declaration has.
-/

namespace Raml

open Raml.TypeName (leadFrom)

-----------------------------------------------------------------------------------------
-- Methods among the places
-----------------------------------------------------------------------------------------

section Places

variable {lead : String} {m : Method}

/-- A walk that starts at a type never comes by a method, by induction on the type. -/
theorem TypeNode.method_not_mem_sites (t : TypeNode)
    : ∀ targets, .method m ∉ t.sites lead targets := by
  induction t using TypeNode.induct with
  | step t ih =>
      intro targets
      rw [sites_eq, propertySites_eq]
      simpa using fun key p member => ih key p member _

theorem method_not_mem_propertySites (properties : Properties)
    : .method m ∉ propertySites lead properties := by
  simp [propertySites_eq, TypeNode.method_not_mem_sites]

theorem Bodies.method_not_mem_sites (site : Target) (bodies : Bodies)
    : .method m ∉ Bodies.sites lead site bodies := by
  simp [sites, TypeNode.method_not_mem_sites]

theorem Response.method_not_mem_sites (r : Response) : .method m ∉ r.sites lead := by
  simp [sites, method_not_mem_propertySites, Bodies.method_not_mem_sites]

mutual

/-- A walk that starts at a method comes by no other one. -/
theorem Method.method_not_mem_sites (target : Target)
    : ∀ other : Method, .method m ∉ other.sites lead target
  | ⟨_, _, _, _, _, _, _, _, _, is, _, _⟩ => by
      simp [Method.sites, method_not_mem_propertySites, Bodies.method_not_mem_sites,
        Response.method_not_mem_sites, method_not_mem_traitSites is]

/-- A trait is visited as a whole, and the method that it consists of is not. -/
theorem Trait.method_not_mem_sites : ∀ t : Trait, .method m ∉ t.sites lead
  | ⟨_, method, _, _, _, _, _⟩ => by
      simp [Trait.sites, Method.method_not_mem_sites .trait method]

theorem method_not_mem_traitSites : ∀ traits : List Trait, .method m ∉ traitSites lead traits
  | [] => List.not_mem_nil
  | t :: traits => by
      simp [traitSites, Trait.method_not_mem_sites t, method_not_mem_traitSites traits]

end

mutual

/-- The methods in a resource are those that it declares, at any depth. -/
theorem Resource.method_mem_sites_iff (lead : String)
    : ∀ r : Resource, .method m ∈ r.sites lead ↔ m ∈ r.allMethods
  | ⟨_, _, _, methods, is, _, _, _, resources⟩ => by
      simp [Resource.sites, Resource.allMethods, method_not_mem_propertySites,
        method_not_mem_traitSites, Method.method_not_mem_sites,
        method_mem_resourceSites_iff lead resources]

/-- A walk comes by the methods of resources at every depth, and by no others. -/
theorem method_mem_resourceSites_iff (lead : String)
    : ∀ resources : List (String × Resource),
      .method m ∈ resourceSites lead resources ↔ m ∈ resourceMethods resources
  | [] => by simp [resourceSites, resourceMethods]
  | (_, r) :: resources => by
      simp [resourceSites, resourceMethods, Resource.method_mem_sites_iff lead r,
        method_mem_resourceSites_iff lead resources]

end

/-- A library has no methods of its own. -/
theorem Library.method_not_mem_ownSites (target : Target) (l : Library)
    : .method m ∉ l.ownSites lead target := by
  simp [ownSites, TypeNode.method_not_mem_sites, Trait.method_not_mem_sites]

end Places

namespace Document

variable {d : Document} {target : Target} {m : Method} {lead : String} {t : Trait}

/-- The methods in a document are those of its resources. -/
theorem method_mem_sites_iff : .method m ∈ d.sites target ↔ m ∈ resourceMethods d.resources := by
  rw [mem_sites_iff, ← method_mem_resourceSites_iff ""]
  constructor
  · rintro ⟨path, l, -, inside⟩
    have others := (List.mem_append.mp inside).resolve_left (Library.method_not_mem_ownSites _ l)
    cases path with
    | nil =>
        rw [List.mem_append] at others
        exact others.resolve_right (method_not_mem_propertySites _)
    | cons => cases others
  · intro inside
    refine ⟨[], d.library, .self _, List.mem_append_right _ ?_⟩
    exact List.mem_append_left _ inside

/-- The traits in a document stand in the libraries that it leads to. -/
theorem hasTrait_of_mem_sites (bare : d.BareTraits) (h : .trait lead t ∈ d.sites target)
    : ∃ path l, d.library.Reaches path l ∧ d.HasTrait path l t := by
  obtain ⟨path, l, reaches, inside⟩ := mem_sites_iff.mp h
  have among : (lead, t) ∈ Site.traitsOf (d.sitesIn target path l) :=
    List.mem_flatMap.mpr ⟨_, inside, List.mem_singleton_self _⟩
  have uses : ∀ t ∈ d.traitUses path l, t.method.is = [] := fun _ used => bare.used reaches used
  exact ⟨path, l, reaches, ((mem_traitsOf_iff uses reaches).mp among).2⟩

end Document

-----------------------------------------------------------------------------------------
-- The review
-----------------------------------------------------------------------------------------

namespace Review

variable {s : Settings} {target : Target} {d : Document} {key label : String} {keys : List String}

/-- The first of the keys without a place is the one that is reported. -/
theorem reject_eq_error_iff {m : Method} {node : String} {e : Error}
    : unknownKey.reject m node = .error e
      ↔ ∃ key keys, m.unexpected = key :: keys ∧ e = .typo key node := by
  unfold unknownKey.reject
  split
  · rename_i none
    simp [none]
  · rename_i key keys some
    simp [some, eq_comm]

/-- Each method and each declaration of a trait is a place. -/
theorem exists_site_of_unexpected (target : Target) (h : d.Unexpected label keys)
    : ∃ site ∈ d.sites target, ∃ m : Method, m.unexpected = keys
        ∧ unknownKey site = unknownKey.reject m label := by
  cases h with
  | @method m has => exact ⟨.method m, Document.method_mem_sites_iff.mpr has, m, rfl, rfl⟩
  | @trait path l key t reaches has =>
      have stands : d.HasTrait path l t := .inl ⟨key, has⟩
      exact ⟨_, stands.mem_sites reaches target, t.method, rfl, rfl⟩

/-- No place is refused but for the key of a method, or of the declaration of a trait. -/
theorem unexpected_of_site (bare : d.BareTraits) (copies : d.CopiesTraits) {site : Site}
    (member : site ∈ d.sites target) {e : Error} (failed : unknownKey site = .error e)
    : ∃ key label keys, e = .typo key label ∧ d.Unexpected label (key :: keys) := by
  cases site with
  | typeNode t => cases failed
  | annotations lead targets g => cases failed
  | method m =>
      obtain ⟨key, keys, unexpected, same⟩ := reject_eq_error_iff.mp failed
      have has := Document.method_mem_sites_iff.mp member
      exact ⟨key, "method", keys, same, unexpected ▸ .method has⟩
  | trait lead t =>
      obtain ⟨key, keys, unexpected, same⟩ := reject_eq_error_iff.mp failed
      obtain ⟨path, l, reaches, ⟨name, declared⟩ | used⟩ :=
        Document.hasTrait_of_mem_sites bare member
      · exact ⟨key, "trait", keys, same, unexpected ▸ .trait reaches declared⟩
      · rcases copies path l reaches t used with none | copied
        · cases none.symm.trans unexpected
        · exact ⟨key, "trait", keys, same, unexpected ▸ copied⟩

/-- A review that succeeds has met no such key. -/
theorem not_unexpected_of_run (h : run s target d = .ok ()) (unexpected : d.Unexpected label keys)
    : keys = [] := by
  obtain ⟨site, member, m, rfl, rejects⟩ := exists_site_of_unexpected target unexpected
  exact unexpected_of_reject (rejects ▸ unknownKey_of_run h member)

/-- Only at its first check does a review fail for a key. -/
theorem run_typo_iff
    : run s target d = .error (.typo key label)
      ↔ (d.sites target).forM unknownKey = .error (.typo key label) := by
  rw [run_eq]
  cases (d.sites target).forM unknownKey with
  | error e => exact Iff.rfl
  | ok =>
      refine iff_of_false (fun failed => ?_) nofun
      rw [ok_bind] at failed
      obtain failed | ⟨_, -, failed⟩ := bind_eq_error_iff.mp failed
      · obtain ⟨_, site, _, -, -, refused⟩ := forM_eq_error_iff.mp failed
        cases site with
        | typeNode t => cases refused
        | trait lead t => cases refused
        | method m => cases refused
        | annotations lead targets g =>
            obtain ⟨_, entry, _, -, -, refused⟩ := forM_eq_error_iff.mp refused
            simp only at refused
            split at refused
            · split at refused <;> cases refused
            · cases refused
      · split at failed
        · cases failed
        · unfold runTraits at failed
          split at failed
          · cases failed
          · exact examples_ne id failed

/-- A review fails for a key if and only if there is one, and only for the first key of a method or
of the declaration of a trait. -/
theorem typo_of_unexpected (s : Settings) (target : Target) (bare : d.BareTraits)
    (copies : d.CopiesTraits)
    : ((∃ key label, run s target d = .error (.typo key label))
        ↔ ∃ label key keys, d.Unexpected label (key :: keys))
      ∧ ∀ key label, run s target d = .error (.typo key label)
        → ∃ keys, d.Unexpected label (key :: keys) := by
  have named (key label : String) (failed : run s target d = .error (.typo key label))
      : ∃ keys, d.Unexpected label (key :: keys) := by
    obtain ⟨before, site, after, split, -, refused⟩ :=
      forM_eq_error_iff.mp (run_typo_iff.mp failed)
    have member : site ∈ d.sites target :=
      split ▸ List.mem_append_right _ List.mem_cons_self
    obtain ⟨_, _, keys, ⟨⟩, unexpected⟩ := unexpected_of_site bare copies member refused
    exact ⟨keys, unexpected⟩
  refine ⟨⟨?_, ?_⟩, named⟩
  · rintro ⟨key, label, failed⟩
    obtain ⟨keys, unexpected⟩ := named key label failed
    exact ⟨label, key, keys, unexpected⟩
  · rintro ⟨label, key, keys, unexpected⟩
    cases checked : (d.sites target).forM unknownKey with
    | ok =>
        obtain ⟨site, member, m, same, rejects⟩ := exists_site_of_unexpected target unexpected
        have passed := forM_eq_ok_iff.mp checked site member
        cases same.symm.trans (unexpected_of_reject (rejects ▸ passed))
    | error e =>
        obtain ⟨before, site, after, split, -, refused⟩ := forM_eq_error_iff.mp checked
        have member : site ∈ d.sites target :=
          split ▸ List.mem_append_right _ List.mem_cons_self
        obtain ⟨key, label, _, rfl, -⟩ := unexpected_of_site bare copies member refused
        exact ⟨key, label, run_typo_iff.mpr checked⟩

end Review

-----------------------------------------------------------------------------------------
-- Documents
-----------------------------------------------------------------------------------------

/-- Traits that stand in full in the document are copied from the library. -/
theorem Document.PlainTraits.copiesTraits {d : Document} (plain : d.PlainTraits) : d.CopiesTraits :=
  fun _ _ reaches _ used => .inl (plain.used reaches used).unexpected

namespace Parser

variable {p : Parser} {target : Target} {mediaTypes : Option (List String)}
  {d₀ d n f s d' : Document} {label : String} {keys : List String}

/-- In what is parsed, no method and no declaration of a trait has a key without a place. -/
theorem not_unexpected_of_resolve (written : d₀.Written) (loads : p.Loads d₀ d)
    (h : p.resolve target mediaTypes d₀ = .ok d') (unexpected : d.Unexpected label keys)
    : keys = [] := by
  obtain ⟨n, f, s, phases, reviewed⟩ := phases_of_resolve loads h
  obtain ⟨-, keeps⟩ := phases.carries (written.plainTraits loads).bare
  exact Review.not_unexpected_of_run reviewed ((keeps.same label keys).mpr unexpected)

/-- Where a document comes to its review, it is refused for a key if and only if some method or the
declaration of some trait has one without a place. -/
theorem Phases.typo_iff (phases : p.Phases target mediaTypes d n f s d') (written : d₀.Written)
    (loads : p.Loads d₀ d)
    : ((∃ key label, p.resolve target mediaTypes d₀ = .error (.typo key label))
        ↔ ∃ label key keys, d.Unexpected label (key :: keys))
      ∧ ∀ key label, p.resolve target mediaTypes d₀ = .error (.typo key label)
        → ∃ keys, d.Unexpected label (key :: keys) := by
  have plain := written.plainTraits loads
  obtain ⟨retains, keeps⟩ := phases.carries plain.bare
  have refused := Review.typo_of_unexpected p.settings target (plain.bare.of_retains retains)
    (keeps.copies plain.copiesTraits)
  simp only [phases.resolve_error_iff loads, ← keeps.same]
  exact refused

end Parser

end Raml
