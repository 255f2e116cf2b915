import Raml.Proofs.Documents.Parts
import Raml.Proofs.Documents.Phases
import Raml.Proofs.Traits.Uses

/-! Passes neither add nor hide a use of a trait.

A use that is filled in keeps its name, and what it takes from the declaration uses no traits.
-/

namespace Raml

open Raml.TypeName (leadFrom)

-----------------------------------------------------------------------------------------
-- Places with the same traits
-----------------------------------------------------------------------------------------

namespace Site

/-- Traits that are used say nothing but their names. -/
def BareUses (traits : List (String × Trait)) : Prop :=
  ∀ lead t, (lead, t) ∈ traits → t.reference ≠ "" → t.method.Blank

/-- The same names are used at both lists of places. -/
def SameUses (a b : List Site) : Prop := usedNames (traitsOf b) = usedNames (traitsOf a)

/-- The same names are used at both lists of places, and if uses say nothing else at the first one,
they do not at the second. -/
structure SameTraits (a b : List Site) : Prop where
  uses : SameUses a b
  bare : BareUses (traitsOf a) → BareUses (traitsOf b)

theorem SameUses.append {a b c d : List Site} (first : SameUses a c) (rest : SameUses b d)
    : SameUses (a ++ b) (c ++ d) := by
  have names := congr (congrArg HAppend.hAppend first) rest
  simpa [SameUses, usedNames] using names

/-- Where parts use the same names, so does the whole. -/
theorem joins_sameUses : Joins SameUses := ⟨rfl, SameUses.append⟩

theorem bareUses_append {a b : List (String × Trait)}
    : BareUses (a ++ b) ↔ BareUses a ∧ BareUses b := by
  simp only [BareUses, List.mem_append]
  constructor
  · intro bare
    exact ⟨fun lead t member => bare lead t (Or.inl member),
      fun lead t member => bare lead t (Or.inr member)⟩
  · rintro ⟨first, rest⟩ lead t (member | member)
    · exact first lead t member
    · exact rest lead t member

/-- Where parts keep uses bare, so does the whole. -/
theorem joins_sameTraits : Joins SameTraits where
  nil := ⟨rfl, id⟩
  append {a b c d} first rest := by
    refine ⟨first.uses.append rest.uses, ?_⟩
    simp only [traitsOf_append, bareUses_append]
    rintro ⟨bare, others⟩
    exact ⟨first.bare bare, rest.bare others⟩

end Site

open Site (SameTraits BareUses usedNames traitsOf)

-----------------------------------------------------------------------------------------
-- Passes
-----------------------------------------------------------------------------------------

namespace Pass

variable {P : Library → Site → Prop} {p : Pass}

/-- Only what a pass does to traits themselves has to be looked at. -/
theorem relates_traits {R : List Site → List Site → Prop} (joins : Site.Joins R)
    (same : ∀ a b, traitsOf b = traitsOf a → R a b)
    (node : ∀ lead t m, (t.method.Blank → m.Blank)
      → R [.trait lead t] [.trait lead { t with method := m }])
    (empties : p.Empties) (keys : ∀ types, Keyed.keys (p.annotationTypes types) = Keyed.keys types)
    (trait : ∀ s t done, (∀ site ∈ t.sites s.lead, P s.library site) → p.trait s t = .ok (some done)
      → R (t.sites s.lead) (done.sites s.lead))
    : p.Relates (fun _ => True) P fun _ => R where
  joins _ := joins
  empties := empties
  type _ _ _ := Alike.of_ok fun _ _ => same _ _ (by simp)
  properties _ _ _ := Alike.of_ok fun _ _ => same _ _ (by simp)
  parameters _ _ _ _ := Alike.of_ok fun _ _ => same _ _ (by simp)
  annotations _ _ _ _ := Alike.of_ok fun _ _ => same _ _ (by simp)
  annotationTypes s types _ := by
    have none (types : AnnotationTypes)
        : traitsOf (types.flatMap fun entry => entry.2.type.sites s.lead [.annotationType])
          = [] :=
      Site.traitsOf_flatMap_eq_nil fun entry => entry.2.type.traitsOf_sites _ _
    apply Alike.of_ok
    intro types' ok
    exact ⟨(keys_onValues ok).trans (keys types), same _ _ ((none types').trans (none types).symm)⟩
  bodies _ _ _ _ := Alike.of_ok fun _ _ => same _ _ (by simp)
  trait s t h := by
    apply Alike.of_ok
    intro _ ok done same
    cases same
    exact trait s t done h ok
  traitNode _ lead t m blank := node lead t m blank
  method _ _ _ := same _ _ rfl

/-- The name of a use is all that counts. -/
theorem sameUses_of_eq {a b : List Site} (h : traitsOf b = traitsOf a) : Site.SameUses a b := by
  rw [Site.SameUses, h]

/-- A pass leaves traits to be walked, and the names of annotations as they are. -/
structure LeavesTraits (p : Pass) : Prop where
  empties : p.Empties
  keys (types : AnnotationTypes) : Keyed.keys (p.annotationTypes types) = Keyed.keys types
  idle (s : Scope) (t : Trait) : p.trait s t = .ok none

/-- A pass that leaves traits to be walked changes none of them. -/
theorem LeavesTraits.relates (leaves : p.LeavesTraits)
    : p.Relates (fun _ => True) P fun _ => SameTraits := by
  refine relates_traits Site.joins_sameTraits ?_ ?_ leaves.empties leaves.keys ?_
  · intro a b same
    exact ⟨sameUses_of_eq same, fun bare => same ▸ bare⟩
  · intro lead t m blank
    refine ⟨by simp [Site.SameUses, usedNames], ?_⟩
    simp only [BareUses, Site.traitsOf_cons, Site.traits, Site.traitsOf_nil, List.append_nil,
      List.mem_singleton, Prod.mk.injEq]
    intro bare _ _ same used
    obtain ⟨rfl, rfl⟩ := same
    exact blank (bare _ t ⟨rfl, rfl⟩ used)
  · intro s t done _ ok
    rw [leaves.idle] at ok
    cases ok

/-- Hooks for types leave traits to be walked. -/
theorem leavesTraits_ofHooks {hooks : Scope → TypeHooks} (empties : (ofHooks hooks).Empties)
    : (ofHooks hooks).LeavesTraits :=
  ⟨empties, fun _ => rfl, fun _ _ => rfl⟩

theorem leavesTraits_normalizeProperties : normalizeProperties.LeavesTraits :=
  leavesTraits_ofHooks ⟨fun _ => rfl, fun _ _ => rfl, rfl⟩

/-- Bodies are not traits. -/
theorem leavesTraits_applyMediaTypes (mediaTypes : Option (List String))
    : (applyMediaTypes mediaTypes).LeavesTraits := by
  cases mediaTypes <;> exact ⟨⟨fun _ => rfl, fun _ _ => rfl, rfl⟩, fun _ => rfl, fun _ _ => rfl⟩

theorem leavesTraits_completeAnnotations : completeAnnotations.LeavesTraits :=
  ⟨⟨fun _ => rfl, fun _ _ => rfl, rfl⟩, AnnotationTypes.keys_withTypes, fun _ _ => rfl⟩

theorem leavesTraits_nameAnnotations : nameAnnotations.LeavesTraits :=
  leavesTraits_ofHooks ⟨fun _ => rfl, fun _ _ => rfl, rfl⟩

theorem leavesTraits_fillTypes : fillTypes.LeavesTraits :=
  ⟨⟨fun _ => rfl, fun _ _ => rfl, rfl⟩, fun _ => rfl, fun _ _ => rfl⟩

/-- Parameters are not traits. -/
theorem leavesTraits_fillUriParameters : fillUriParameters.LeavesTraits :=
  ⟨⟨fun _ => rfl, fun _ _ => rfl, rfl⟩, fun _ => rfl, fun _ _ => rfl⟩

theorem leavesTraits_fillExamples (source : Source) : (fillExamples source).LeavesTraits :=
  leavesTraits_ofHooks ⟨fun _ => rfl, fun _ _ => rfl, rfl⟩

/-- The declaration that takes the place of a use is used under the same name, and uses nothing. -/
theorem sameUses_of_fill {lead : String} {l : Library} {t done : Trait}
    (bare : BareUses (traitsOf (t.sites lead))) (h : t.fill l = .ok (some done))
    : Site.SameUses (t.sites lead) (done.sites lead) := by
  unfold Trait.fill at h
  split at h
  · cases h
  · rename_i used
    have reference : t.reference ≠ "" := by simpa using used
    have none : t.method.is = [] := (bare lead t (by simp) reference).is
    split at h
    · cases h
    · cases h
      simp [Site.SameUses, usedNames, none, traitSites]

/-- A use that is filled in keeps its name, and uses nothing. -/
theorem fillTraits_relates
    : fillTraits.Relates (fun _ => True) (fun _ site => BareUses site.traits)
        fun _ => Site.SameUses := by
  refine relates_traits Site.joins_sameUses (fun _ _ => sameUses_of_eq) ?_
    ⟨fun _ => rfl, fun _ _ => rfl, rfl⟩ (fun _ => rfl) ?_
  · intro lead t m _
    simp [Site.SameUses, usedNames]
  · intro s t done bare ok
    apply sameUses_of_fill ?_ ok
    intro lead u member
    obtain ⟨site, inside, here⟩ := List.mem_flatMap.mp member
    exact bare site inside lead u here

end Pass

-----------------------------------------------------------------------------------------
-- Documents
-----------------------------------------------------------------------------------------

namespace Document

variable {target : Target} {d d' d'' : Document}

/-- In every library the same traits are declared and used, under the same names. -/
def KeepsUses (target : Target) (d d' : Document) : Prop := d.Related Site.SameUses target d'

/-- The same, and uses that say nothing but their names go on to do so. -/
def KeepsTraits (target : Target) (d d' : Document) : Prop := d.Related SameTraits target d'

/-- Uses of traits say nothing but the names of these. -/
def BareUses (target : Target) (d : Document) : Prop :=
  ∀ path l, d.library.Reaches path l → Site.BareUses (traitsOf (d.sitesIn target path l))

theorem KeepsUses.trans (h : d.KeepsUses target d') (h' : d'.KeepsUses target d'')
    : d.KeepsUses target d'' :=
  Related.trans h h' fun _ _ _ uses uses' => Eq.trans uses' uses

theorem KeepsTraits.trans (h : d.KeepsTraits target d') (h' : d'.KeepsTraits target d'')
    : d.KeepsTraits target d'' :=
  Related.trans h h' fun _ _ _ first second =>
    ⟨Eq.trans second.uses first.uses, fun bare => second.bare (first.bare bare)⟩

/-- What keeps traits keeps the names that are used. -/
theorem KeepsTraits.uses (h : d.KeepsTraits target d') : d.KeepsUses target d' := by
  refine Library.Corresponds.mono h ?_
  intro path m m' _ ⟨names, traits⟩
  exact ⟨names, traits.uses⟩

/-- Uses stay bare if they were. -/
theorem KeepsTraits.bare (h : d.KeepsTraits target d') (bare : d.BareUses target)
    : d'.BareUses target := by
  intro path l' reaches
  obtain ⟨l, reaches, -, traits⟩ := h.backward reaches
  exact traits.bare (bare path l reaches)

/-- The same traits are declared under their full names. -/
theorem KeepsUses.declares_iff (h : d.KeepsUses target d') {name : String}
    : d'.DeclaresTrait name ↔ d.DeclaresTrait name := by
  constructor
  · rintro ⟨path, l', key, reaches, declared, rfl⟩
    obtain ⟨l, reaches, names, -⟩ := h.backward reaches
    exact ⟨path, l, key, reaches, names.1 ▸ declared, rfl⟩
  · rintro ⟨path, l, key, reaches, declared, rfl⟩
    obtain ⟨l', reaches, names, -⟩ := h.forward reaches
    exact ⟨path, l', key, reaches, names.1.symm ▸ declared, rfl⟩

/-- The names of used traits are those that are used in any of the libraries. -/
theorem mem_traitsUsed_iff {name : String}
    : name ∈ (d.sites target).flatMap Review.traitsUsed
      ↔ ∃ path l, d.library.Reaches path l
          ∧ name ∈ usedNames (traitsOf (d.sitesIn target path l)) := by
  simp only [Site.usedNames_traitsOf, List.mem_flatMap, mem_sites_iff]
  constructor
  · rintro ⟨site, ⟨path, l, reaches, inside⟩, used⟩
    exact ⟨path, l, reaches, site, inside, used⟩
  · rintro ⟨path, l, reaches, site, inside, used⟩
    exact ⟨site, ⟨path, l, reaches, inside⟩, used⟩

/-- The same traits are used under their full names. -/
theorem KeepsUses.mem_traitsUsed_iff (h : d.KeepsUses target d') {name : String}
    : name ∈ (d'.sites target).flatMap Review.traitsUsed
      ↔ name ∈ (d.sites target).flatMap Review.traitsUsed := by
  rw [Document.mem_traitsUsed_iff, Document.mem_traitsUsed_iff]
  constructor
  · rintro ⟨path, l', reaches, used⟩
    obtain ⟨l, reaches, -, uses⟩ := h.backward reaches
    rw [Site.SameUses] at uses
    exact ⟨path, l, reaches, uses ▸ used⟩
  · rintro ⟨path, l, reaches, used⟩
    obtain ⟨l', reaches, -, uses⟩ := h.forward reaches
    rw [Site.SameUses] at uses
    exact ⟨path, l', reaches, uses.symm ▸ used⟩

/-- What is written as a use is what counts as one. -/
theorem PlainTraits.mem_traitsUsed_iff (plain : d.PlainTraits) {name : String}
    : name ∈ (d.sites target).flatMap Review.traitsUsed ↔ d.UsesTrait name := by
  rw [Document.mem_traitsUsed_iff]
  simp only [usedNames, List.mem_flatMap, Prod.exists, UsesTrait]
  constructor
  · rintro ⟨path, l, reaches, lead, t, member, used⟩
    split at used
    · cases used
    · rename_i reference
      obtain ⟨rfl, ⟨key, declared⟩ | inside⟩ := (plain.mem_traitsOf_iff reaches).mp member
      · simp [plain.declared reaches declared] at reference
      · exact ⟨path, l, t, reaches, inside, by simpa using reference, List.mem_singleton.mp used⟩
  · rintro ⟨path, l, t, reaches, inside, reference, rfl⟩
    refine ⟨path, l, reaches, leadFrom "" path, t, ?_, by simp [reference]⟩
    exact (plain.mem_traitsOf_iff reaches).mpr ⟨rfl, Or.inr inside⟩

/-- In plain documents, a trait with a name is a use and is blank. -/
theorem PlainTraits.bareUses (plain : d.PlainTraits) : d.BareUses target := by
  intro path l reaches lead t member reference
  obtain ⟨-, ⟨key, declared⟩ | inside⟩ := (plain.mem_traitsOf_iff reaches).mp member
  · exact absurd (plain.declared reaches declared) reference
  · exact plain.used reaches inside

-----------------------------------------------------------------------------------------
-- From phase to phase
-----------------------------------------------------------------------------------------

/-- A pass that leaves traits keeps them. -/
theorem KeepsTraits.of_run {p : Pass} (leaves : p.LeavesTraits) (h : p.run target d = .ok d')
    : d.KeepsTraits target d' := by
  have relates : p.Relates (fun _ => True) (fun _ _ => True) fun _ => SameTraits := leaves.relates
  exact (relates.run target fun _ _ _ _ _ => trivial).result d' h

/-- Filling in traits keeps the names of those that are used. -/
theorem KeepsUses.of_fillTraits (bare : d.BareUses target)
    (h : Pass.fillTraits.run target d = .ok d')
    : d.KeepsUses target d' := by
  refine (Pass.fillTraits_relates.run target ?_).result d' h
  intro path l reaches site inside lead t here
  exact bare path l reaches lead t (List.mem_flatMap.mpr ⟨site, inside, here⟩)

/-- Other libraries that declare the same traits keep them. -/
theorem KeepsTraits.of_library {l' : Library}
    (h : d.library.Corresponds (fun _ m m' => m.SameNames m' ∧ m'.traits = m.traits) l')
    : d.KeepsTraits target { d with library := l' } := by
  refine Library.Corresponds.mono h ?_
  intro path m m' _ ⟨names, same⟩
  have traits : traitsOf (sitesIn target { d with library := l' } path m')
      = traitsOf (d.sitesIn target path m) := by
    simp only [sitesIn, Site.traitsOf_append, Library.traitsOf_ownSites, same]
  exact ⟨names, Pass.sameUses_of_eq traits, fun bare => traits ▸ bare⟩

/-- Resolution changes types only. -/
theorem KeepsTraits.of_resolve {l' : Library} (h : d.library.resolve = .ok l')
    : d.KeepsTraits target { d with library := l' } := by
  refine of_library ((Library.corresponds_of_resolve h).mono ?_)
  intro _ m m' _ resolved
  exact ⟨Library.sameNames_of_resolve resolved, Library.traits_of_resolve resolved⟩

/-- Reading examples changes types only. -/
theorem KeepsTraits.of_materialize {source : Source} {directory : Path} {l' : Library}
    (h : d.library.materialize source directory = .ok l')
    : d.KeepsTraits target { d with library := l' } := by
  refine of_library ((Library.corresponds_of_materialize h).mono ?_)
  rintro _ m m' - ⟨_, read⟩
  rw [(Library.eq_of_materialize read).2.2]
  exact ⟨⟨rfl, rfl⟩, rfl⟩

variable {mediaTypes : Option (List String)}

/-- Four passes in turn keep traits. -/
theorem KeepsTraits.of_normalize (h : d.normalize target mediaTypes = .ok d')
    : d.KeepsTraits target d' := by
  obtain ⟨d₁, properties, h⟩ := bind_eq_ok_iff.mp h
  obtain ⟨d₂, bodies, h⟩ := bind_eq_ok_iff.mp h
  obtain ⟨d₃, values, names⟩ := bind_eq_ok_iff.mp h
  have first := of_run Pass.leavesTraits_normalizeProperties properties
  have second := of_run (Pass.leavesTraits_applyMediaTypes mediaTypes) bodies
  have third := of_run Pass.leavesTraits_completeAnnotations values
  exact ((first.trans second).trans third).trans (of_run Pass.leavesTraits_nameAnnotations names)

/-- Resolution and one pass keep traits. -/
theorem KeepsTraits.of_fill (h : d.fill target = .ok d') : d.KeepsTraits target d' := by
  obtain ⟨l, resolved, types⟩ := bind_eq_ok_iff.mp h
  exact (of_resolve resolved).trans (of_run Pass.leavesTraits_fillTypes types)

/-- What comes last keeps traits. -/
theorem KeepsTraits.of_finish {p : Parser} (h : p.finish target d = .ok d')
    : d.KeepsTraits target d' := by
  obtain ⟨d₁, parameters, h⟩ := bind_eq_ok_iff.mp h
  obtain ⟨l, read, examples⟩ := bind_eq_ok_iff.mp h
  have added := of_run Pass.leavesTraits_fillUriParameters parameters
  exact (added.trans (of_materialize read)).trans
    (of_run (Pass.leavesTraits_fillExamples p.source) examples)

end Document

end Raml
