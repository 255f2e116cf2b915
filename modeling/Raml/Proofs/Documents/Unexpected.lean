import Raml.Proofs.Documents.Settled

/-! Keys that have no place in a method or in a trait: they are found when it is decoded, and it is
the review that fails for them.

Between the two, methods and declarations of traits are walked and cloned, and what takes the place
of the use of a trait is a copy of a declaration. The keys are the same all the way.
-/

namespace Raml

open Raml.TypeName (leadFrom)

-----------------------------------------------------------------------------------------
-- Methods and traits of a document
-----------------------------------------------------------------------------------------

mutual

/-- The methods of a resource and of those below it. -/
def Resource.allMethods : Resource → List Method
  | ⟨_, _, _, methods, _, _, _, _, resources⟩ => methods.map (·.2) ++ resourceMethods resources

def resourceMethods : List (String × Resource) → List Method
  | [] => []
  | (_, r) :: resources => r.allMethods ++ resourceMethods resources

end

/-- The keys that have no place in methods, or in the declarations of traits. -/
inductive Document.Unexpected (d : Document) : String → List String → Prop
  | method {m : Method} (has : m ∈ resourceMethods d.resources)
    : Unexpected d "method" m.unexpected
  | trait {path : List String} {l : Library} {key : String} {t : Trait}
    (reaches : d.library.Reaches path l) (has : (key, t) ∈ l.traits)
    : Unexpected d "trait" t.method.unexpected

/-- What uses of traits say is nothing, or it is what some declaration says. -/
def Document.CopiesTraits (d : Document) : Prop :=
  ∀ path l, d.library.Reaches path l → ∀ t ∈ d.traitUses path l,
    t.method.unexpected = [] ∨ d.Unexpected "trait" t.method.unexpected

theorem resourceMethods_eq (resources : Resources)
    : resourceMethods resources = resources.flatMap fun entry => entry.2.allMethods := by
  induction resources with
  | nil => rfl
  | cons entry resources ih => rw [resourceMethods, ih, List.flatMap_cons]

/-- The methods of a resource come before those of the resources below it. -/
theorem Resource.allMethods_eq (r : Resource)
    : r.allMethods = r.methods.map (·.2) ++ resourceMethods r.resources := by
  cases r
  rfl

-----------------------------------------------------------------------------------------
-- Passes
-----------------------------------------------------------------------------------------

namespace Pass

variable {p : Pass} {s : Scope} {target : Target}

/-- No pass changes which keys of a method have no place. -/
theorem unexpected_onMethod {m m' : Method} (h : p.onMethod s target m = .ok m')
    : m'.unexpected = m.unexpected := by
  cases m
  obtain ⟨_, -, h⟩ := bind_eq_ok_iff.mp h
  obtain ⟨_, -, h⟩ := bind_eq_ok_iff.mp h
  obtain ⟨_, -, h⟩ := bind_eq_ok_iff.mp h
  obtain ⟨_, -, h⟩ := bind_eq_ok_iff.mp h
  obtain ⟨_, -, h⟩ := bind_eq_ok_iff.mp h
  obtain ⟨_, -, h⟩ := bind_eq_ok_iff.mp h
  cases h
  rfl

/-- A trait is taken as done, or its keys stay as they are. -/
theorem unexpected_onTrait {t t' : Trait} (h : p.onTrait s t = .ok t')
    : p.trait s t = .ok (some t') ∨ t'.method.unexpected = t.method.unexpected := by
  cases t
  obtain ⟨done?, taken, h⟩ := bind_eq_ok_iff.mp h
  cases done? with
  | some done =>
      cases h
      exact .inl taken
  | none =>
      obtain ⟨method, walked, h⟩ := bind_eq_ok_iff.mp h
      cases h
      exact .inr (unexpected_onMethod walked)

mutual

/-- By induction on the resource: its methods keep their order. -/
theorem unexpected_onResource {key : String}
    : ∀ {r r' : Resource}, p.onResource s key r = .ok r'
      → r'.allMethods.map Method.unexpected = r.allMethods.map Method.unexpected
  | ⟨_, _, _, methods, _, _, _, _, resources⟩, r', h => by
      obtain ⟨_, -, h⟩ := bind_eq_ok_iff.mp h
      obtain ⟨_, -, h⟩ := bind_eq_ok_iff.mp h
      obtain ⟨_, -, h⟩ := bind_eq_ok_iff.mp h
      obtain ⟨methods', walked, h⟩ := bind_eq_ok_iff.mp h
      obtain ⟨resources', below, h⟩ := bind_eq_ok_iff.mp h
      cases h
      have own : methods'.map (fun entry => entry.2.unexpected)
          = methods.map fun entry => entry.2.unexpected := by
        rw [← List.forall₂_eq_eq_eq, List.forall₂_map_left_iff, List.forall₂_map_right_iff]
        exact (related_of_onValues walked).flip.imp fun _ _ related => unexpected_onMethod related.2
      simp only [Resource.allMethods, List.map_append, List.map_map, Function.comp_def, own,
        unexpected_onResources below]

theorem unexpected_onResources
    : ∀ {resources resources' : List (String × Resource)},
      p.onResources s resources = .ok resources'
      → (resourceMethods resources').map Method.unexpected
        = (resourceMethods resources).map Method.unexpected
  | [], _, h => by
      cases h
      rfl
  | (key, r) :: resources, _, h => by
      obtain ⟨r', first, h⟩ := bind_eq_ok_iff.mp h
      obtain ⟨rest, others, h⟩ := bind_eq_ok_iff.mp h
      cases h
      rw [resourceMethods, resourceMethods, List.map_append, List.map_append,
        unexpected_onResource first, unexpected_onResources others]

end

variable {d d' : Document} {label : String} {keys : List String}

/-- The resources of a document are walked in the scope of its library. -/
theorem resources_of_run (h : p.run target d = .ok d')
    : p.onResources d.scope d.resources = .ok d'.resources := by
  obtain ⟨_, -, h⟩ := bind_eq_ok_iff.mp h
  obtain ⟨_, walked, h⟩ := bind_eq_ok_iff.mp h
  obtain ⟨_, -, h⟩ := bind_eq_ok_iff.mp h
  cases h
  exact walked

/-- Declarations are walked, since only uses are taken as done. -/
theorem FillsUses.unexpected (fills : p.FillsUses) {t t' : Trait} (h : p.onTrait s t = .ok t')
    (declared : t.reference = "")
    : t'.method.unexpected = t.method.unexpected := by
  rcases unexpected_onTrait h with done | same
  · exact absurd declared (fills s t t' done).1
  · exact same

/-- A pass takes at most uses as done, for a copy of the declaration that they name. -/
structure Copies (p : Pass) : Prop where
  fills : p.FillsUses
  copy {s : Scope} {t done : Trait} (h : p.trait s t = .ok (some done))
    : ∃ declared, s.library.getTrait? t.reference = some declared
        ∧ done.method.unexpected = declared.method.unexpected

/-- A pass that leaves traits as they are copies none of them. -/
theorem LeavesTraits.copies (leaves : p.LeavesTraits) : p.Copies where
  fills := leaves.fillsUses
  copy h := by
    rw [leaves.idle] at h
    cases h

/-- The pass that fills in traits takes each from a declaration. -/
theorem copies_fillTraits : fillTraits.Copies where
  fills := fillTraits_fillsUses
  copy {s t done} h := by
    have filled : t.fill s.library = .ok (some done) := h
    unfold Trait.fill at filled
    split at filled
    · cases filled
    · split at filled
      · cases filled
      · rename_i declared found
        cases filled
        exact ⟨declared, found, rfl⟩

end Pass

-----------------------------------------------------------------------------------------
-- Documents
-----------------------------------------------------------------------------------------

namespace Document

variable {d d' d'' : Document} {label : String} {keys : List String}

theorem unexpected_of_mem (h : keys ∈ (resourceMethods d.resources).map Method.unexpected)
    : d.Unexpected "method" keys := by
  obtain ⟨m, has, rfl⟩ := List.mem_map.mp h
  exact .method has

/-- Methods and declarations of traits have the same keys in both documents. -/
structure SameKeys (d d' : Document) : Prop where
  methods
    : (resourceMethods d'.resources).map Method.unexpected
      = (resourceMethods d.resources).map Method.unexpected
  forward {path : List String} {l : Library} (reaches : d.library.Reaches path l)
    : ∃ l', d'.library.Reaches path l' ∧ ∀ key t, (key, t) ∈ l.traits
      → ∃ t', (key, t') ∈ l'.traits ∧ t'.method.unexpected = t.method.unexpected
  backward {path : List String} {l' : Library} (reaches : d'.library.Reaches path l')
    : ∃ l, d.library.Reaches path l ∧ ∀ key t', (key, t') ∈ l'.traits
      → ∃ t, (key, t) ∈ l.traits ∧ t'.method.unexpected = t.method.unexpected

/-- With the same methods and declarations the same keys have no place. -/
theorem SameKeys.iff (same : d.SameKeys d')
    : d'.Unexpected label keys ↔ d.Unexpected label keys := by
  constructor
  · intro h
    cases h with
    | method has => exact unexpected_of_mem (same.methods ▸ List.mem_map_of_mem has)
    | trait reaches has =>
        obtain ⟨l, reaches, each⟩ := same.backward reaches
        obtain ⟨t, has, kept⟩ := each _ _ has
        exact kept ▸ .trait reaches has
  · intro h
    cases h with
    | method has => exact unexpected_of_mem (same.methods.symm ▸ List.mem_map_of_mem has)
    | trait reaches has =>
        obtain ⟨l', reaches, each⟩ := same.forward reaches
        obtain ⟨t', has, kept⟩ := each _ _ has
        exact kept ▸ .trait reaches has

/-- The same keys have no place in both documents, and what uses of traits say stays a copy. -/
structure KeepsKeys (d d' : Document) : Prop where
  same : ∀ label keys, d'.Unexpected label keys ↔ d.Unexpected label keys
  copies : d.CopiesTraits → d'.CopiesTraits

/-- What two steps keep in turn is kept by both together. -/
theorem KeepsKeys.trans (h : d.KeepsKeys d') (h' : d'.KeepsKeys d'') : d.KeepsKeys d'' where
  same label keys := (h'.same label keys).trans (h.same label keys)
  copies := h'.copies ∘ h.copies

end Document

namespace Pass.Copies

variable {p : Pass} {target : Target} {d d' : Document}

/-- A walk comes by methods and declarations of traits, and leaves their keys. -/
theorem sameKeys (copies : p.Copies) (bare : d.BareTraits) (h : p.run target d = .ok d')
    : d.SameKeys d' where
  methods := unexpected_onResources (resources_of_run h)
  forward {path l} reaches := by
    obtain ⟨there, reached⟩ := Library.exists_reachesAt reaches d.directory
    obtain ⟨l', reached', s, target, rfl, -, made⟩ :=
      (parallel_takes p).forward reached (takes_of_run h)
    refine ⟨l', reached'.reaches, fun key t member => ?_⟩
    obtain ⟨t', member', walked⟩ := (makes_of_onLibrary made).traits.forward member
    exact ⟨t', member', copies.fills.unexpected walked (bare.declared reaches member)⟩
  backward {path l'} reaches := by
    obtain ⟨_, _, reached, s, target, rfl, -, made⟩ :=
      (parallel_takes p).backward reaches (takes_of_run h)
    refine ⟨s.library, reached.reaches, fun key t' member' => ?_⟩
    obtain ⟨t, member, walked⟩ := (makes_of_onLibrary made).traits.backward member'
    exact ⟨t, member, copies.fills.unexpected walked (bare.declared reached.reaches member)⟩

/-- The trait that takes the place of a use has the keys of its declaration, which is still there.
-/
theorem keepsKeys (copies : p.Copies) (bare : d.BareTraits) (h : p.run target d = .ok d')
    : d.KeepsKeys d' := by
  have same := copies.sameKeys bare h
  refine ⟨fun _ _ => same.iff, fun before path l' reaches t' used => ?_⟩
  obtain ⟨s, reached, -, uses⟩ := copies.fills.exists_scope bare h reaches
  obtain ⟨t, used, walked⟩ := uses t' used
  rcases unexpected_onTrait walked with done | kept
  · obtain ⟨declared, found, copied⟩ := copies.copy done
    obtain ⟨_, m, key, within, has⟩ := Library.reaches_of_getTrait? found
    exact .inr (copied ▸ same.iff.mpr (.trait (reached.trans within) has))
  · rw [kept]
    exact (before path s.library reached t used).imp_right same.iff.mpr

end Pass.Copies

-----------------------------------------------------------------------------------------
-- From phase to phase
-----------------------------------------------------------------------------------------

namespace Document

variable {target : Target} {mediaTypes : Option (List String)} {d d' d'' : Document}

/-- Where uses of traits use none, what is retained of a document are its keys as well. -/
def Carries (d d' : Document) : Prop := d.BareTraits → d.Retains d' ∧ d.KeepsKeys d'

/-- Uses of traits use none after the first step either. -/
theorem Carries.trans (h : d.Carries d') (h' : d'.Carries d'') : d.Carries d'' := by
  intro bare
  obtain ⟨retains, keeps⟩ := h bare
  obtain ⟨retains', keeps'⟩ := h' (bare.of_retains retains)
  exact ⟨retains.trans retains', keeps.trans keeps'⟩

/-- What a single pass carries over. -/
theorem carries_of_run {p : Pass} (copies : p.Copies) (h : p.run target d = .ok d')
    : d.Carries d' :=
  fun bare => ⟨copies.fills.retains bare h, copies.keepsKeys bare h⟩

/-- Libraries may take the place of others that have the same traits. -/
theorem carries_of_library {S : Path → Library → Library → Prop} (parallel : Library.Parallel S)
    (traits : ∀ {directory l l'}, S directory l l' → l'.traits = l.traits) (directory : Path)
    {l' : Library} (h : S directory d.library l')
    : d.Carries { d with library := l' } := by
  have same : d.SameKeys { d with library := l' } := {
    methods := rfl
    forward := by
      intro path m reaches
      obtain ⟨there, reached⟩ := Library.exists_reachesAt reaches directory
      obtain ⟨m', reached', related⟩ := parallel.forward reached h
      exact ⟨m', reached'.reaches, fun key t member => ⟨t, (traits related).symm ▸ member, rfl⟩⟩
    backward := by
      intro path m' reaches
      obtain ⟨_, m, reached, related⟩ := parallel.backward reaches h
      exact ⟨m, reached.reaches, fun key t member => ⟨t, traits related ▸ member, rfl⟩⟩ }
  refine fun bare => ⟨.of_library parallel traits directory h, fun _ _ => same.iff, ?_⟩
  intro copies path m' reaches t used
  obtain ⟨_, m, reached, related⟩ := parallel.backward reaches h
  have used : t ∈ d.traitUses path m := by
    simpa only [traitUses, Library.traitUses, traits related] using used
  exact (copies path m reached.reaches t used).imp_right same.iff.mpr

/-- Four passes in turn. -/
theorem carries_of_normalize (h : d.normalize target mediaTypes = .ok d') : d.Carries d' := by
  obtain ⟨d₁, properties, h⟩ := bind_eq_ok_iff.mp h
  obtain ⟨d₂, bodies, h⟩ := bind_eq_ok_iff.mp h
  obtain ⟨d₃, values, names⟩ := bind_eq_ok_iff.mp h
  have first := carries_of_run Pass.leavesTraits_normalizeProperties.copies properties
  have second := carries_of_run (Pass.leavesTraits_applyMediaTypes mediaTypes).copies bodies
  have third := carries_of_run Pass.leavesTraits_completeAnnotations.copies values
  have last := carries_of_run Pass.leavesTraits_nameAnnotations.copies names
  exact ((first.trans second).trans third).trans last

/-- Resolution puts a library in place that has the same traits, and a pass follows. -/
theorem carries_of_fill (h : d.fill target = .ok d') : d.Carries d' := by
  obtain ⟨l, resolved, types⟩ := bind_eq_ok_iff.mp h
  have first : d.Carries { d with library := l } :=
    carries_of_library Library.parallel_resolve Library.traits_of_resolve d.directory resolved
  exact first.trans (carries_of_run Pass.leavesTraits_fillTypes.copies types)

/-- Reading examples puts a library in place that has the same traits. -/
theorem carries_of_finish {p : Parser} (h : p.finish target d = .ok d') : d.Carries d' := by
  obtain ⟨d₁, parameters, h⟩ := bind_eq_ok_iff.mp h
  obtain ⟨l, read, examples⟩ := bind_eq_ok_iff.mp h
  have first := carries_of_run Pass.leavesTraits_fillUriParameters.copies parameters
  have second : d₁.Carries { d₁ with library := l } := by
    refine carries_of_library (Library.parallel_materializes p.source) ?_ _
      ⟨d₁.directory, rfl, read⟩
    rintro _ _ _ ⟨_, -, read⟩
    rw [(Library.eq_of_materialize read).2.2]
  have last := carries_of_run (Pass.leavesTraits_fillExamples p.source).copies examples
  exact (first.trans second).trans last

end Document

theorem Parser.Phases.carries {p : Parser} {target : Target} {mediaTypes : Option (List String)}
    {d n f s d' : Document} (phases : p.Phases target mediaTypes d n f s d')
    : d.Carries d' := by
  have prepared := (Document.carries_of_normalize phases.normal).trans
    (Document.carries_of_fill phases.filled)
  have substituted := Document.carries_of_run Pass.copies_fillTraits phases.substituted
  exact (prepared.trans substituted).trans (Document.carries_of_finish phases.finished)

end Raml
