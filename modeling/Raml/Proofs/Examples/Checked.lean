import Raml.Proofs.Checking.Unused
import Raml.Proofs.Documents.Phases
import Raml.Proofs.Documents.Sites
import Raml.Proofs.Text.Utf8

/-! Strict examples of a document that has been parsed conform to their types.

The review comes last and goes through all places of the document that is returned. What has to be
shown is that it misses none: every type that stands anywhere is one of the places.
-/

namespace Raml

-----------------------------------------------------------------------------------------
-- Types among the places
-----------------------------------------------------------------------------------------

/-- A walk through a type comes by the types of its properties, by induction on the way to one. -/
theorem TypeNode.Within.mem_sites {t u : TypeNode} (inside : t.Within u) (lead : String)
    (targets : List Target)
    : .typeNode t ∈ u.sites lead targets := by
  induction inside generalizing targets with
  | self => simp [sites_eq]
  | property member _ ih =>
      rw [sites_eq, propertySites_eq]
      exact List.mem_append_right _ (List.mem_flatMap.mpr ⟨_, member, ih _⟩)

/-- A walk through properties comes by their types, at any depth. -/
theorem Properties.mem_sites {t : TypeNode} {properties : Properties}
    (h : (Part.properties properties).Has t) (lead : String)
    : .typeNode t ∈ propertySites lead properties := by
  obtain ⟨key, p, member, inside⟩ := h
  rw [propertySites_eq]
  exact List.mem_flatMap.mpr ⟨_, member, inside.mem_sites lead _⟩

section

variable {t : TypeNode} {part : Part}

theorem Bodies.mem_sites (has : part.Has t) (lead : String) (site : Target) {bodies : Bodies}
    (h : part ∈ bodies.parts)
    : .typeNode t ∈ Bodies.sites lead site bodies := by
  obtain ⟨entry, member, rfl⟩ := List.mem_map.mp h
  exact List.mem_flatMap.mpr ⟨entry, member, TypeNode.Within.mem_sites has lead _⟩

theorem Response.mem_sites (has : part.Has t) (lead : String) {r : Response} (h : part ∈ r.parts)
    : .typeNode t ∈ r.sites lead := by
  rw [sites]
  rcases List.mem_cons.mp h with rfl | inBodies
  · exact List.mem_append_left _ (List.mem_cons_of_mem _ (Properties.mem_sites has lead))
  · exact List.mem_append_right _ (Bodies.mem_sites has lead _ inBodies)

mutual

/-- By induction on the method, with the traits that it uses. -/
theorem Method.mem_sites (has : part.Has t) (lead : String) (target : Target)
    : ∀ m : Method, part ∈ m.parts → .typeNode t ∈ m.sites lead target
  | ⟨_, _, _, queryParameters, headers, _, responses, bodies, _, is, _, _⟩, h => by
      simp only [Method.parts, Method.sites, List.cons_append, List.mem_cons, List.mem_append,
        List.mem_flatMap] at h ⊢
      rcases h with rfl | rfl | (inUses | inBodies) | ⟨entry, member, inResponse⟩
      · exact Or.inr (Or.inl (Or.inl (Or.inl (Or.inl (Properties.mem_sites has lead)))))
      · exact Or.inr (Or.inl (Or.inl (Or.inl (Or.inr (Properties.mem_sites has lead)))))
      · exact Or.inr (Or.inl (Or.inl (Or.inr (traits_mem_sites has lead is inUses))))
      · exact Or.inr (Or.inl (Or.inr (Bodies.mem_sites has lead _ inBodies)))
      · exact Or.inr (Or.inr ⟨entry, member, Response.mem_sites has lead inResponse⟩)

/-- A walk through a trait comes by the types in what it has in common with methods. -/
theorem Trait.mem_sites (has : part.Has t) (lead : String)
    : ∀ trait : Trait, part ∈ trait.parts → .typeNode t ∈ trait.sites lead
  | ⟨_, method, _, _, _, _, _⟩, h =>
      List.mem_cons_of_mem _ (Method.mem_sites has lead .trait method h)

theorem traits_mem_sites (has : part.Has t) (lead : String)
    : ∀ traits : List Trait, part ∈ traitParts traits → .typeNode t ∈ traitSites lead traits
  | first :: traits, h => by
      rcases List.mem_append.mp h with inFirst | inRest
      · exact List.mem_append_left _ (Trait.mem_sites has lead first inFirst)
      · exact List.mem_append_right _ (traits_mem_sites has lead traits inRest)

end

mutual

/-- By induction on the resource, with those below it. -/
theorem Resource.mem_sites (has : part.Has t) (lead : String)
    : ∀ r : Resource, part ∈ r.parts → .typeNode t ∈ r.sites lead
  | ⟨_, _, _, methods, is, _, _, uriParameters, resources⟩, h => by
      simp only [Resource.parts, Resource.sites, List.cons_append, List.mem_cons, List.mem_append,
        List.mem_flatMap] at h ⊢
      rcases h with rfl | (inUses | ⟨entry, member, inMethod⟩) | inResources
      · exact Or.inr (Or.inl (Or.inl (Or.inl (Properties.mem_sites has lead))))
      · exact Or.inr (Or.inl (Or.inl (Or.inr (traits_mem_sites has lead is inUses))))
      · refine Or.inr (Or.inl (Or.inr ⟨entry, member, Or.inr ?_⟩))
        exact Method.mem_sites has lead .method entry.2 inMethod
      · exact Or.inr (Or.inr (resources_mem_sites has lead resources inResources))

theorem resources_mem_sites (has : part.Has t) (lead : String)
    : ∀ resources : List (String × Resource), part ∈ resourceParts resources
      → .typeNode t ∈ resourceSites lead resources
  | (_, r) :: resources, h => by
      rcases List.mem_append.mp h with inFirst | inRest
      · exact List.mem_append_left _ (Resource.mem_sites has lead r inFirst)
      · exact List.mem_append_right _ (resources_mem_sites has lead resources inRest)

end

end

/-- By induction on what the library uses, whatever positions and namespaces are. -/
theorem Library.mem_sites_of_spot {t : TypeNode} (l : Library)
    : ∀ (pos : Position) (lead : String) (target : Target),
        ∀ spot ∈ l.spots pos, spot.part.Has t → .typeNode t ∈ l.sites lead target := by
  induction l using induct with
  | step l ih =>
      intro pos lead target
      simp only [sites_eq, ownSites, List.mem_append, List.mem_flatMap]
      refine forall_spots_iff.mpr ⟨?_, ?_, ?_, forall_mem_useSpots fun name used member => ?_⟩
      · intro entry member has
        exact Or.inl (Or.inl (Or.inl (Or.inl ⟨entry, member, TypeNode.Within.mem_sites has _ _⟩)))
      · intro entry member part inside has
        exact Or.inl (Or.inl (Or.inl (Or.inr
          ⟨entry, member, Trait.mem_sites has lead entry.2 inside⟩)))
      · intro entry member has
        exact Or.inl (Or.inl (Or.inr ⟨entry, member, TypeNode.Within.mem_sites has _ _⟩))
      · intro spot inside has
        exact Or.inr (mem_useSites_iff.mpr
          ⟨name, used, member, ih name used member _ _ _ spot inside has⟩)

/-- Every type that stands in a document is one of its places. -/
theorem Document.Has.mem_sites {d : Document} {t : TypeNode} (stands : d.Has t) (target : Target)
    : .typeNode t ∈ d.sites target := by
  obtain ⟨spot, member, has⟩ := stands
  rw [sites, List.mem_append, List.mem_append]
  simp only [spots, List.mem_append, List.mem_map, List.mem_singleton] at member
  rcases member with (inLibrary | ⟨part, inResources, rfl⟩) | rfl
  · exact Or.inl (Or.inl (d.library.mem_sites_of_spot _ "" target spot inLibrary has))
  · exact Or.inl (Or.inr (resources_mem_sites has "" d.resources inResources))
  · exact Or.inr (Properties.mem_sites has "")

/-- The places in a library are places of every document that has it. -/
theorem Document.mem_sites_of_library {d : Document} {target : Target} {site : Site}
    (h : site ∈ sites target { library := d.library })
    : site ∈ d.sites target := by
  simp only [sites, resourceSites, propertySites, List.append_nil] at h
  exact List.mem_append_left _ (List.mem_append_left _ h)

-----------------------------------------------------------------------------------------
-- The review
-----------------------------------------------------------------------------------------

/-- The last check of a review is the one of examples. -/
theorem Review.examples_of_run {settings : Settings} {target : Target} {d : Document}
    (h : run settings target d = .ok ())
    : (d.sites target).forM (examples settings.check) = .ok () := by
  rw [run_eq] at h
  obtain ⟨-, h⟩ := unit_bind_eq_ok_iff.mp h
  obtain ⟨-, h⟩ := unit_bind_eq_ok_iff.mp h
  split at h
  · cases h
  · rw [runTraits] at h
    split at h
    · cases h
    · exact h

/-- A review that succeeds has checked each strict example that has a value. -/
theorem Review.check_of_run {settings : Settings} {target : Target} {d : Document}
    (h : run settings target d = .ok ()) {t : TypeNode} (place : .typeNode t ∈ d.sites target)
    {e : Example} (member : e ∈ t.allExamples) (strict : e.strict = true) {v : Value}
    (value : e.value = some v)
    : t.check v settings.check = .ok () := by
  have atNode := forM_eq_ok_iff.mp (examples_of_run h) _ place
  have atExample := forM_eq_ok_iff.mp atNode e member
  simpa only [strict, value] using atExample

namespace Document

/-- A type stands in a document, and the value is that of one of its strict examples. -/
structure Exemplifies (d : Document) (t : TypeNode) (v : Value) : Prop where
  stands : d.Has t
  strict : ∃ e ∈ t.allExamples, e.strict = true ∧ e.value = some v

/-- The value of the first strict example of a declared type. -/
def strictExample? (d : Document) (name : String) : Option (TypeNode × Value) := do
  let t ← Keyed.get? d.library.types name
  let e ← t.allExamples.find? (·.strict)
  return (t, ← e.value)

/-- The example that is computed stands where it is declared. -/
theorem exemplifies_of_strictExample? {d : Document} {name : String} {t : TypeNode} {v : Value}
    (h : d.strictExample? name = some (t, v))
    : d.Exemplifies t v := by
  obtain ⟨t, declared, h⟩ := Option.bind_eq_some_iff.mp h
  obtain ⟨e, found, h⟩ := Option.bind_eq_some_iff.mp h
  obtain ⟨v, value, h⟩ := Option.bind_eq_some_iff.mp h
  cases h
  exact ⟨has_of_get? declared, e, List.mem_of_find?_eq_some found, List.find?_some found, value⟩

end Document

namespace Parser

/-- Strict examples of what is parsed are values of their types, wherever these stand. -/
theorem check_of_parse (p : Parser) (bytes : Bytes) (directory : Path)
    : (∀ d, p.document bytes directory = .ok d
        → ∀ t v, d.Exemplifies t v → t.check v p.settings.check = .ok ())
      ∧ ∀ l, p.library bytes directory = .ok l
        → ∀ t v, Document.Exemplifies { library := l } t v
          → t.check v p.settings.check = .ok () := by
  constructor
  · intro d parsed t v ⟨stands, e, member, strict, value⟩
    obtain ⟨node, -, parsed⟩ := bind_eq_ok_iff.mp parsed
    obtain ⟨d₀, -, parsed⟩ := bind_eq_ok_iff.mp parsed
    exact Review.check_of_run (review_of_resolve parsed) (stands.mem_sites .api) member strict value
  · intro l parsed t v ⟨stands, e, member, strict, value⟩
    obtain ⟨node, -, parsed⟩ := bind_eq_ok_iff.mp parsed
    obtain ⟨l₀, -, parsed⟩ := bind_eq_ok_iff.mp parsed
    obtain ⟨d, resolved, same⟩ := bind_eq_ok_iff.mp parsed
    cases same
    have place := Document.mem_sites_of_library (stands.mem_sites .library)
    exact Review.check_of_run (review_of_resolve resolved) place member strict value

/-- A library with a type whose example is one of its values. -/
def almanac : Bytes :=
  Bytes.ofText "types:\n  Month:\n    type: integer\n    maximum: 12\n    example: 7\n"

/-- The same types in a document. -/
def calendar : Bytes := Bytes.ofText "title: Calendar\n" ++ almanac

/-- The month of the calendar is one of its values, in the document and in the library. -/
theorem check_of_parse_calendar
    : (∃ d t v, ({} : Parser).document calendar ⟨"."⟩ = .ok d ∧ d.Exemplifies t v
        ∧ t.check v {} = .ok ())
      ∧ ∃ l t v, ({} : Parser).library almanac ⟨"."⟩ = .ok l
        ∧ Document.Exemplifies { library := l } t v ∧ t.check v {} = .ok () := by
  constructor
  · have found : ((({} : Parser).document calendar ⟨"."⟩).toOption.any fun d =>
        (d.strictExample? "Month").isSome) = true := by
      rw [calendar, almanac, Bytes.ofText_ofList, Bytes.ofText_ofList]
      decide +kernel
    obtain ⟨d, parsed, found⟩ := (Option.any_eq_true _ _).mp found
    obtain ⟨⟨t, v⟩, found⟩ := Option.isSome_iff_exists.mp found
    have parsed := ok_of_toOption parsed
    have given := Document.exemplifies_of_strictExample? found
    exact ⟨d, t, v, parsed, given, (check_of_parse {} calendar ⟨"."⟩).1 d parsed t v given⟩
  · have found : ((({} : Parser).library almanac ⟨"."⟩).toOption.any fun l =>
        (Document.strictExample? { library := l } "Month").isSome) = true := by
      rw [almanac, Bytes.ofText_ofList]
      decide +kernel
    obtain ⟨l, parsed, found⟩ := (Option.any_eq_true _ _).mp found
    obtain ⟨⟨t, v⟩, found⟩ := Option.isSome_iff_exists.mp found
    have parsed := ok_of_toOption parsed
    have given := Document.exemplifies_of_strictExample? found
    exact ⟨l, t, v, parsed, given, (check_of_parse {} almanac ⟨"."⟩).2 l parsed t v given⟩

end Parser

end Raml
