import Raml.Proofs.Documents.Parts
import Raml.Proofs.Traits.Written

/-! Traits that are used denote declared ones, and use no others themselves.

Filling in traits fails where a use denotes nothing. All passes leave the names that are declared
and used, so what has been found once goes on to be found in the library around the use.
-/

namespace Raml

-----------------------------------------------------------------------------------------
-- What passes make of uses
-----------------------------------------------------------------------------------------

namespace Pass

/-- A pass puts at most declarations in the place of uses: under the names of these, and without
further uses. -/
def FillsUses (p : Pass) : Prop :=
  ∀ s t done, p.trait s t = .ok (some done)
    → t.reference ≠ "" ∧ done.reference = t.reference ∧ done.method.is = []

variable {p : Pass} {s : Scope}

/-- A pass that leaves traits puts nothing in their place. -/
theorem LeavesTraits.fillsUses (leaves : p.LeavesTraits) : p.FillsUses := by
  intro s t done h
  rw [leaves.idle] at h
  cases h

/-- What takes the place of a use has its name and uses nothing. -/
theorem fillTraits_fillsUses : fillTraits.FillsUses := by
  intro s t done h
  have filled : t.fill s.library = .ok (some done) := h
  unfold Trait.fill at filled
  split at filled
  · cases filled
  · rename_i used
    split at filled
    · cases filled
    · cases filled
      exact ⟨by simpa using used, rfl, rfl⟩

/-- Uses are walked one by one. -/
theorem forall₂_onTraits {uses uses' : List Trait} (h : p.onTraits s uses = .ok uses')
    : List.Forall₂ (fun t t' => p.onTrait s t = .ok t') uses uses' := by
  induction uses generalizing uses' with
  | nil =>
      cases h
      exact .nil
  | cons t uses ih =>
      obtain ⟨t', first, h⟩ := bind_eq_ok_iff.mp h
      obtain ⟨rest, others, h⟩ := bind_eq_ok_iff.mp h
      cases h
      exact .cons first (ih others)

/-- The uses of a method are walked one by one. -/
theorem is_onMethod {target : Target} {m m' : Method} (h : p.onMethod s target m = .ok m')
    : List.Forall₂ (fun t t' => p.onTrait s t = .ok t') m.is m'.is := by
  cases m
  obtain ⟨_, -, h⟩ := bind_eq_ok_iff.mp h
  obtain ⟨_, -, h⟩ := bind_eq_ok_iff.mp h
  obtain ⟨_, -, h⟩ := bind_eq_ok_iff.mp h
  obtain ⟨is, uses, h⟩ := bind_eq_ok_iff.mp h
  obtain ⟨_, -, h⟩ := bind_eq_ok_iff.mp h
  obtain ⟨_, -, h⟩ := bind_eq_ok_iff.mp h
  cases h
  exact forall₂_onTraits uses

/-- A trait is taken as done or its method is walked. -/
theorem onTrait_cases {t t' : Trait} (h : p.onTrait s t = .ok t')
    : p.trait s t = .ok (some t')
      ∨ p.trait s t = .ok none ∧ t'.reference = t.reference
        ∧ List.Forall₂ (fun u u' => p.onTrait s u = .ok u') t.method.is t'.method.is := by
  cases t
  obtain ⟨done?, taken, h⟩ := bind_eq_ok_iff.mp h
  cases done? with
  | some done =>
      cases h
      exact .inl taken
  | none =>
      obtain ⟨method, walked, h⟩ := bind_eq_ok_iff.mp h
      cases h
      exact .inr ⟨taken, rfl, is_onMethod walked⟩

/-- What takes the place of a use is declared. -/
theorem isSome_getTrait?_of_fillTraits {t t' : Trait} (h : fillTraits.onTrait s t = .ok t')
    (used : t.reference ≠ "")
    : (s.library.getTrait? t.reference).isSome = true := by
  have filled : t.fill s.library = .ok (some t') ∨ t.fill s.library = .ok none :=
    (onTrait_cases h).imp_right And.left
  unfold Trait.fill at filled
  rw [if_neg (by simpa using used)] at filled
  cases found : s.library.getTrait? t.reference with
  | some declared => rfl
  | none => simp [found] at filled

/-- A trait keeps its reference. -/
theorem FillsUses.reference (fills : p.FillsUses) {t t' : Trait} (h : p.onTrait s t = .ok t')
    : t'.reference = t.reference := by
  rcases onTrait_cases h with done | ⟨-, same, -⟩
  · exact (fills s t t' done).2.1
  · exact same

/-- A trait that uses nothing goes on to use nothing. -/
theorem FillsUses.bare (fills : p.FillsUses) {t t' : Trait} (h : p.onTrait s t = .ok t')
    (bare : t.method.is = [])
    : t'.method.is = [] := by
  rcases onTrait_cases h with done | ⟨-, -, uses⟩
  · exact (fills s t t' done).2.2
  · rw [bare] at uses
    exact List.forall₂_nil_left_iff.mp uses

/-- Declarations that do not refer to others are walked. -/
theorem FillsUses.is_of_declared (fills : p.FillsUses) {t t' : Trait}
    (h : p.onTrait s t = .ok t') (declared : t.reference = "")
    : List.Forall₂ (fun u u' => p.onTrait s u = .ok u') t.method.is t'.method.is := by
  rcases onTrait_cases h with done | ⟨-, -, uses⟩
  · exact absurd declared (fills s t t' done).1
  · exact uses

mutual

/-- By induction on the resource: its uses are walked one by one. -/
theorem traitUses_onResource {key : String}
    : ∀ {r r' : Resource}, p.onResource s key r = .ok r'
      → List.Forall₂ (fun t t' => p.onTrait s t = .ok t') r.traitUses r'.traitUses
  | ⟨_, _, _, methods, is, _, _, _, resources⟩, r', h => by
      obtain ⟨_, -, h⟩ := bind_eq_ok_iff.mp h
      obtain ⟨_, -, h⟩ := bind_eq_ok_iff.mp h
      obtain ⟨is', own, h⟩ := bind_eq_ok_iff.mp h
      obtain ⟨methods', walked, h⟩ := bind_eq_ok_iff.mp h
      obtain ⟨resources', below, h⟩ := bind_eq_ok_iff.mp h
      cases h
      have ofMethods := (related_of_onValues walked).imp fun _ _ related => is_onMethod related.2
      have methods := List.rel_flatMap ofMethods fun _ _ uses => uses
      exact List.rel_append (List.rel_append (forall₂_onTraits own) methods)
        (traitUses_onResources below)

theorem traitUses_onResources
    : ∀ {resources resources' : List (String × Resource)},
      p.onResources s resources = .ok resources'
      → List.Forall₂ (fun t t' => p.onTrait s t = .ok t') (resourceTraitUses resources)
          (resourceTraitUses resources')
  | [], _, h => by
      cases h
      exact .nil
  | (key, r) :: resources, _, h => by
      obtain ⟨r', first, h⟩ := bind_eq_ok_iff.mp h
      obtain ⟨rest, others, h⟩ := bind_eq_ok_iff.mp h
      cases h
      exact List.rel_append (traitUses_onResource first) (traitUses_onResources others)

end

end Pass

-----------------------------------------------------------------------------------------
-- Documents
-----------------------------------------------------------------------------------------

namespace Document

variable {d d' d'' : Document} {path : List String} {l l' : Library}

/-- Declarations of traits do not refer to others in their own stead, and uses use no traits. -/
structure BareTraits (d : Document) : Prop where
  declared {path : List String} {l : Library} (h : d.library.Reaches path l) {key : String}
    {t : Trait} (member : (key, t) ∈ l.traits) : t.reference = ""
  used {path : List String} {l : Library} (h : d.library.Reaches path l) {t : Trait}
    (member : t ∈ d.traitUses path l) : t.method.is = []

/-- A blank use uses nothing. -/
theorem PlainTraits.bare (plain : d.PlainTraits) : d.BareTraits where
  declared := plain.declared
  used reaches _ member := (plain.used reaches member).is

/-- What a document retains of the library behind some namespaces when another comes of it. -/
structure RetainsLibrary (d d' : Document) (path : List String) (l l' : Library) : Prop where
  visible (name : String) : (l'.getTrait? name).isSome = (l.getTrait? name).isSome
  loaded (h : l.Loaded) : l'.Loaded
  declared {key : String} {t' : Trait} (member : (key, t') ∈ l'.traits)
    : ∃ t, (key, t) ∈ l.traits ∧ t'.reference = t.reference
  used {t' : Trait} (member : t' ∈ d'.traitUses path l')
    : ∃ t ∈ d.traitUses path l, t'.reference = t.reference ∧ (t.method.is = [] → t'.method.is = [])

/-- The same names of traits are declared and used, and what is loaded stays so. -/
def Retains (d d' : Document) : Prop :=
  ∀ path l', d'.library.Reaches path l'
    → ∃ l, d.library.Reaches path l ∧ d.RetainsLibrary d' path l l'

/-- What is retained twice in turn is retained. -/
theorem Retains.trans (h : d.Retains d') (h' : d'.Retains d'') : d.Retains d'' := by
  intro path l'' reaches
  obtain ⟨l', reaches, second⟩ := h' path l'' reaches
  obtain ⟨l, reaches, first⟩ := h path l' reaches
  refine ⟨l, reaches, fun name => (second.visible name).trans (first.visible name),
    fun all => second.loaded (first.loaded all), fun member => ?_, fun member => ?_⟩
  · obtain ⟨t', member, same'⟩ := second.declared member
    obtain ⟨t, member, same⟩ := first.declared member
    exact ⟨t, member, same'.trans same⟩
  · obtain ⟨t', member, same', bare'⟩ := second.used member
    obtain ⟨t, member, same, bare⟩ := first.used member
    exact ⟨t, member, same'.trans same, fun none => bare' (bare none)⟩

/-- Uses are as bare as those they come from. -/
theorem BareTraits.of_retains (bare : d.BareTraits) (h : d.Retains d') : d'.BareTraits where
  declared reaches _ _ member := by
    obtain ⟨l, reaches, retains⟩ := h _ _ reaches
    obtain ⟨t, member, same⟩ := retains.declared member
    exact same.trans (bare.declared reaches member)
  used reaches _ member := by
    obtain ⟨l, reaches, retains⟩ := h _ _ reaches
    obtain ⟨t, member, -, kept⟩ := retains.used member
    exact kept (bare.used reaches member)

/-- The name of every trait that is used denotes one in the library around it. -/
def TraitsVisible (d : Document) : Prop :=
  ∀ path l, d.library.Reaches path l → ∀ t ∈ d.traitUses path l, t.reference ≠ ""
    → (l.getTrait? t.reference).isSome = true

/-- Names that denote something go on to do so. -/
theorem TraitsVisible.of_retains (visible : d.TraitsVisible) (h : d.Retains d')
    : d'.TraitsVisible := by
  intro path l' reaches t' member used
  obtain ⟨l, reaches, retains⟩ := h path l' reaches
  obtain ⟨t, member, same, -⟩ := retains.used member
  rw [retains.visible, same]
  exact visible path l reaches t member (same ▸ used)

end Document

/-- What comes of a loaded library is loaded. -/
theorem Library.Loaded.of_related {S : Library → Library → Prop} {l l' : Library}
    (h : Keyed.Related (UseRelated S) l.uses l'.uses) (all : l.Loaded)
    : l'.Loaded := by
  intro name use' member
  obtain ⟨use, member, related⟩ := h.backward member
  obtain ⟨m, rfl⟩ := all name use member
  cases related
  exact ⟨_, rfl⟩

namespace Pass

variable {p : Pass} {target : Target} {d d' : Document} {path : List String} {l' : Library}

/-- The uses in a library are walked in its scope. -/
theorem FillsUses.traitUses (fills : p.FillsUses) {s : Scope}
    (made : p.onLibrary s target s.library = .ok l')
    (declared : ∀ entry ∈ s.library.traits, entry.2.reference = "")
    : ∀ t' ∈ l'.traitUses, ∃ t ∈ s.library.traitUses, p.onTrait s t = .ok t' := by
  intro u' member
  obtain ⟨⟨key, t'⟩, inside, used⟩ := List.mem_flatMap.mp member
  obtain ⟨t, inside, walked⟩ := (makes_of_onLibrary made).traits.backward inside
  have uses := fills.is_of_declared walked (declared _ inside)
  obtain ⟨u, used, walked⟩ := exists_left_of_forall₂ uses used
  exact ⟨u, List.mem_flatMap.mpr ⟨_, inside, used⟩, walked⟩

/-- Behind namespaces a pass comes by a library and by the uses of traits that belong to it. -/
theorem FillsUses.exists_scope (fills : p.FillsUses) (bare : d.BareTraits)
    (h : p.run target d = .ok d') (reaches : d'.library.Reaches path l')
    : ∃ s : Scope, d.library.Reaches path s.library
        ∧ (∃ target, p.onLibrary s target s.library = .ok l')
        ∧ ∀ t' ∈ d'.traitUses path l', ∃ t ∈ d.traitUses path s.library, p.onTrait s t = .ok t' := by
  cases reaches with
  | self =>
      obtain ⟨library, made, h⟩ := bind_eq_ok_iff.mp h
      obtain ⟨resources, walked, h⟩ := bind_eq_ok_iff.mp h
      obtain ⟨_, -, h⟩ := bind_eq_ok_iff.mp h
      cases h
      refine ⟨d.scope, .self _, ⟨target, made⟩, List.forall_mem_append.mpr ⟨?_, ?_⟩⟩
      · intro t' member
        obtain ⟨t, used, walked⟩ := fills.traitUses made
          (fun _ member => bare.declared (.self _) member) t' member
        exact ⟨t, List.mem_append_left _ used, walked⟩
      · intro t' member
        obtain ⟨t, used, walked⟩ := exists_left_of_forall₂ (traitUses_onResources walked) member
        exact ⟨t, List.mem_append_right _ used, walked⟩
  | used first rest =>
      have reaches : d'.library.Reaches _ l' := .used first rest
      obtain ⟨_, _, reached, s, target, rfl, -, made⟩ :=
        (parallel_takes p).backward reaches (takes_of_run h)
      refine ⟨s, reached.reaches, ⟨target, made⟩, fun t' member => ?_⟩
      obtain ⟨t, used, walked⟩ := fills.traitUses made
        (fun _ member => bare.declared reached.reaches member) t'
        (by simpa [Document.traitUses] using member)
      exact ⟨t, List.mem_append_left _ used, walked⟩

/-- A pass retains names, uses and what is loaded. -/
theorem FillsUses.retains (fills : p.FillsUses) (bare : d.BareTraits)
    (h : p.run target d = .ok d')
    : d.Retains d' := by
  intro path l' reaches
  obtain ⟨s, reached, ⟨target, made⟩, uses⟩ := fills.exists_scope bare h reaches
  have makes := makes_of_onLibrary made
  have takes : p.Takes s.directory s.library l' := ⟨s, target, rfl, rfl, made⟩
  refine ⟨s.library, reached, fun name => (parallel_takes p).isSome_getTrait? takes name,
    Library.Loaded.of_related makes.uses, fun member => ?_, fun member => ?_⟩
  · obtain ⟨t, member, walked⟩ := makes.traits.backward member
    exact ⟨t, member, fills.reference walked⟩
  · obtain ⟨t, member, walked⟩ := uses _ member
    exact ⟨t, member, fills.reference walked, fills.bare walked⟩

/-- Where filling in traits succeeds, every use has found a declaration. -/
theorem traitsVisible_of_fillTraits (bare : d.BareTraits) (h : fillTraits.run target d = .ok d')
    : d'.TraitsVisible := by
  intro path l' reaches t' member used
  obtain ⟨s, -, ⟨target, made⟩, uses⟩ := fillTraits_fillsUses.exists_scope bare h reaches
  have takes : fillTraits.Takes s.directory s.library l' := ⟨s, target, rfl, rfl, made⟩
  obtain ⟨t, -, walked⟩ := uses t' member
  have same := fillTraits_fillsUses.reference walked
  rw [(parallel_takes fillTraits).isSome_getTrait? takes, same]
  exact isSome_getTrait?_of_fillTraits walked (same ▸ used)

end Pass

-----------------------------------------------------------------------------------------
-- From phase to phase
-----------------------------------------------------------------------------------------

namespace Document.Retains

variable {target : Target} {mediaTypes : Option (List String)} {d d' d'' : Document}

/-- Libraries may take the place of others that have the same traits. -/
theorem of_library {S : Path → Library → Library → Prop} (parallel : Library.Parallel S)
    (traits : ∀ {directory l l'}, S directory l l' → l'.traits = l.traits) (directory : Path)
    {l' : Library} (h : S directory d.library l')
    : d.Retains { d with library := l' } := by
  intro path m' reaches
  obtain ⟨_, m, reached, related⟩ := parallel.backward reaches h
  have same := traits related
  refine ⟨m, reached.reaches, parallel.isSome_getTrait? related,
    Library.Loaded.of_related (parallel.uses related), fun {key t} member => ?_, fun {t} member => ?_⟩
  · exact ⟨t, same ▸ member, rfl⟩
  · refine ⟨t, ?_, rfl, id⟩
    simpa only [traitUses, Library.traitUses, same] using member

/-- Resolution retains traits as they are. -/
theorem of_resolve {l' : Library} (h : d.library.resolve = .ok l')
    : d.Retains { d with library := l' } :=
  of_library Library.parallel_resolve Library.traits_of_resolve d.directory h

/-- Reading examples retains traits as they are. -/
theorem of_materialize {source : Source} {l' : Library}
    (h : d.library.materialize source d.directory = .ok l')
    : d.Retains { d with library := l' } := by
  refine of_library (Library.parallel_materializes source) ?_ _ ⟨d.directory, rfl, h⟩
  rintro _ _ _ ⟨_, -, read⟩
  rw [(Library.eq_of_materialize read).2.2]

/-- Four passes in turn. -/
theorem of_normalize (bare : d.BareTraits) (h : d.normalize target mediaTypes = .ok d')
    : d.Retains d' := by
  obtain ⟨d₁, properties, h⟩ := bind_eq_ok_iff.mp h
  obtain ⟨d₂, bodies, h⟩ := bind_eq_ok_iff.mp h
  obtain ⟨d₃, values, names⟩ := bind_eq_ok_iff.mp h
  have media := (Pass.leavesTraits_applyMediaTypes mediaTypes).fillsUses
  have annotations := Pass.leavesTraits_completeAnnotations.fillsUses
  have brackets := Pass.leavesTraits_nameAnnotations.fillsUses
  have first := Pass.leavesTraits_normalizeProperties.fillsUses.retains bare properties
  have second := first.trans (media.retains (bare.of_retains first) bodies)
  have third := second.trans (annotations.retains (bare.of_retains second) values)
  exact third.trans (brackets.retains (bare.of_retains third) names)

/-- Resolution, and a pass. -/
theorem of_fill (bare : d.BareTraits) (h : d.fill target = .ok d') : d.Retains d' := by
  obtain ⟨l, resolved, types⟩ := bind_eq_ok_iff.mp h
  have first := of_resolve resolved
  exact first.trans (Pass.leavesTraits_fillTypes.fillsUses.retains (bare.of_retains first) types)

/-- The passes that come last, and reading examples. -/
theorem of_finish {p : Parser} (bare : d.BareTraits) (h : p.finish target d = .ok d')
    : d.Retains d' := by
  obtain ⟨d₁, parameters, h⟩ := bind_eq_ok_iff.mp h
  obtain ⟨l, read, examples⟩ := bind_eq_ok_iff.mp h
  have first := Pass.leavesTraits_fillUriParameters.fillsUses.retains bare parameters
  have reads := (Pass.leavesTraits_fillExamples p.source).fillsUses
  have second := first.trans (of_materialize read)
  exact second.trans (reads.retains (bare.of_retains second) examples)

end Document.Retains

/-- A document that comes to be complete retains what has been loaded, and all of its uses of traits
denote declared ones. -/
theorem Parser.Phases.retains {p : Parser} {target : Target} {mediaTypes : Option (List String)}
    {d n f s d' : Document} (phases : p.Phases target mediaTypes d n f s d')
    (bare : d.BareTraits)
    : d.Retains d' ∧ d'.TraitsVisible := by
  have normal := Document.Retains.of_normalize bare phases.normal
  have filled := normal.trans (.of_fill (bare.of_retains normal) phases.filled)
  have ofFilled := bare.of_retains filled
  have substituted := filled.trans (Pass.fillTraits_fillsUses.retains ofFilled phases.substituted)
  have finished := Document.Retains.of_finish (bare.of_retains substituted) phases.finished
  have visible := Pass.traitsVisible_of_fillTraits ofFilled phases.substituted
  exact ⟨substituted.trans finished, visible.of_retains finished⟩

end Raml
