import Raml.Proofs.Annotations.Passes
import Raml.Proofs.Documents.Phases
import Raml.Proofs.Examples.Derivation
import Raml.Proofs.Traits.Kept

/-! Annotations after types are filled in: they stay at their places, and there are no others but
those of declared traits where these are used.
-/

namespace Raml

open Raml.TypeName (leadFrom)
open Site (Becomes Gains BareUses appliedOf)

namespace Library

/-- An annotation is that of a declared trait, in the library itself or in one that it leads to. -/
def Shares (l : Library) (here : List Target) (a : Annotation) : Prop :=
  ∃ path m, l.Reaches path m
    ∧ (here, a) ∈ appliedOf (m.traits.flatMap fun entry => entry.2.sites "")

end Library

/-- Without the traits that it uses, a method has some of its annotations. -/
theorem Method.appliedOf_sites_subset (m : Method) (lead : String) (target : Target)
    : appliedOf (Method.sites lead target { m with is := [] })
      ⊆ appliedOf (m.sites lead target) := by
  rw [sites_eq, sites_eq]
  simp only [Site.appliedOf_append, traitSites, List.append_nil]
  have uses := List.sublist_append_left (appliedOf (.annotations lead [target] m.annotations
    :: propertySites lead m.queryParameters) ++ appliedOf (propertySites lead m.headers))
    (appliedOf (traitSites lead m.is))
  exact ((uses.append (.refl _)).append (.refl _)).subset

/-- The annotations in a use that is filled in are those of the declaration. -/
theorem Trait.gains_fill {l : Library} {lead : String} {t done : Trait}
    (bare : BareUses (Site.traitsOf (t.sites lead))) (h : t.fill l = .ok (some done))
    : Gains l.Shares (t.sites lead) (done.sites lead) := by
  unfold fill at h
  split at h
  · cases h
  rename_i used
  have blank : t.method.Blank := bare lead t (by simp) (by simpa using used)
  have none : appliedOf (t.sites lead) = [] := by
    rw [sites_eq, Site.appliedOf_cons, blank.appliedOf_sites]
    rfl
  cases found : l.getTrait? t.reference with
  | none => simp [found] at h
  | some declared =>
      simp only [found, Except.ok.injEq, Option.some.injEq] at h
      subst h
      obtain ⟨path, m, key, reaches, member⟩ := Library.reaches_of_getTrait? found
      refine Site.gains_iff.mpr ⟨by simp [none], fun here a inside => Or.inr ?_⟩
      refine ⟨path, m, reaches, ?_⟩
      rw [Site.appliedOf_flatMap]
      refine List.mem_flatMap.mpr ⟨_, member, ?_⟩
      rw [sites_withLead, Site.appliedOf_withLead, sites_eq] at inside
      rw [sites_eq]
      exact declared.method.appliedOf_sites_subset _ _ inside

-----------------------------------------------------------------------------------------
-- Passes
-----------------------------------------------------------------------------------------

namespace Pass

variable {P : Library → Site → Prop} {p : Pass} {extra : Library → List Target → Annotation → Prop}

/-- A pass changes nothing but parameters of resources and uses of traits. -/
structure LeavesTypes (p : Pass) : Prop where
  empties : p.Empties
  type (s : Scope) (targets : List Target) (t : TypeNode) : p.type s targets t = .ok t
  properties (s : Scope) (ps : Properties) : p.properties s ps = .ok ps
  annotations (s : Scope) (targets : List Target) (g : Annotations)
    : p.annotations s targets g = .ok g
  annotationTypes (types : AnnotationTypes) : p.annotationTypes types = types
  bodies (bodies : Bodies) : p.bodies bodies = .ok bodies

/-- Such a pass is known by the parameters that it adds and by what it does to traits. -/
theorem LeavesTypes.gains (leaves : p.LeavesTypes)
    (parameters : ∀ (lead key : String) (ps : Properties),
      appliedOf (propertySites lead (p.uriParameters key ps)) = appliedOf (propertySites lead ps))
    (trait : ∀ s t done, (∀ site ∈ t.sites s.lead, P s.library site) → p.trait s t = .ok (some done)
      → Gains (extra s.library) (t.sites s.lead) (done.sites s.lead))
    : p.Relates (fun _ => True) P fun l => Gains (extra l) where
  joins _ := Site.joins_becomes
  empties := leaves.empties
  type s t _ := by
    rw [leaves.type]
    exact Alike.ok (.of_eq rfl)
  properties s ps _ := by
    rw [leaves.properties]
    exact Alike.ok (.of_eq rfl)
  parameters s key ps _ := by
    rw [leaves.properties]
    exact Alike.ok (.of_eq (parameters s.lead key ps))
  annotations s targets g _ := by
    rw [leaves.annotations]
    exact Alike.ok (.of_eq rfl)
  annotationTypes s types _ := by
    rw [leaves.annotationTypes]
    apply onValues_relates Site.joins_becomes fun a : AnnotationType =>
      a.type.sites s.lead [.annotationType]
    intro entry _
    rw [leaves.type]
    exact Alike.ok (Gains.of_eq rfl)
  bodies s site bodies _ := by
    rw [onBodies, leaves.bodies, ok_bind]
    refine (onValues_relates Site.joins_becomes (·.sites s.lead [.typeDeclaration, site])
      fun entry _ => ?_).mono fun _ related => related.2
    rw [leaves.type]
    exact Alike.ok (Gains.of_eq rfl)
  trait s t known := Alike.of_ok fun done? ok done same => trait s t done known (same ▸ ok)
  traitNode _ _ _ _ _ := .of_nil rfl rfl
  method _ _ _ := .of_nil rfl rfl

/-- A trait that takes the place of its use brings the annotations of a declared trait and no
others. -/
theorem fillTraits_gains
    : fillTraits.Relates (fun _ => True) (fun _ site => BareUses site.traits)
        fun l => Gains l.Shares := by
  have leaves : fillTraits.LeavesTypes := {
    empties := ⟨fun _ => rfl, fun _ _ => rfl, rfl⟩
    type := fun _ _ _ => rfl
    properties := fun _ _ => rfl
    annotations := fun _ _ _ => rfl
    annotationTypes := fun _ => rfl
    bodies := fun _ => rfl }
  apply leaves.gains (fun _ _ _ => rfl)
  intro s t done bare ok
  refine Trait.gains_fill ?_ ok
  intro lead u member
  obtain ⟨site, inside, here⟩ := List.mem_flatMap.mp member
  exact bare site inside lead u here

/-- Nothing is applied to the parameters that keys ask for. -/
theorem appliedOf_addBraced (lead key : String) (ps : Properties)
    : appliedOf (propertySites lead (ps.addBraced key)) = appliedOf (propertySites lead ps) := by
  apply Keyed.foldl_missing_induct
    (P := fun m => appliedOf (propertySites lead m) = appliedOf (propertySites lead ps))
    Property.undeclared
  · rfl
  · intro m name _ same
    rw [propertySites_eq, List.flatMap_append, Site.appliedOf_append, ← propertySites_eq, same]
    exact List.append_nil _

/-- Parameters that are added have no annotations. -/
theorem fillUriParameters_gains
    : fillUriParameters.Relates (fun _ => True) P fun l => Gains (extra l) := by
  have leaves : fillUriParameters.LeavesTypes := {
    empties := ⟨fun _ => rfl, fun _ _ => rfl, rfl⟩
    type := fun _ _ _ => rfl
    properties := fun _ _ => rfl
    annotations := fun _ _ _ => rfl
    annotationTypes := fun _ => rfl
    bodies := fun _ => rfl }
  apply leaves.gains appliedOf_addBraced
  intro s t done _ ok
  cases ok

-----------------------------------------------------------------------------------------
-- Examples
-----------------------------------------------------------------------------------------

/-- The same annotations stand at both lists of places. -/
def SameApplied (a b : List Site) : Prop := appliedOf b = appliedOf a

/-- That the same annotations stand there goes from parts to the whole. -/
theorem joins_sameApplied : Site.Joins SameApplied where
  nil := rfl
  append first rest := by
    rw [SameApplied, Site.appliedOf_append, Site.appliedOf_append, first, rest]

/-- A type by itself keeps its annotations where all of its examples do. -/
theorem mapExamplesM_same (lead : String) (targets : List Target)
    {f : Example → Except Error Example} {t : TypeNode}
    (each : ∀ e e', f e = .ok e' → e'.annotations = e.annotations)
    : Alike (fun _ => True) (t.mapExamplesM f) (t.mapExamplesM f) fun t' =>
        t'.properties = t.properties
          ∧ SameApplied (t.topSites lead targets) (t'.topSites lead targets) := by
  refine (t.mapExamplesM_relates joins_sameApplied lead fun e _ => Alike.of_ok fun e' ok => ?_).mono
    ?_
  · rw [each e e' ok]
    rfl
  · intro t' ⟨example?, examples, same, kept⟩
    subst same
    exact ⟨rfl, joins_sameApplied.append (a := [_, _]) (c := [_, _]) rfl kept⟩

/-- Reading an example from its file leaves its annotations alone. -/
theorem annotations_materialize {load : Include} {kind : Kind} {e e' : Example}
    (h : e.materialize load kind = .ok e')
    : e'.annotations = e.annotations := by
  unfold Example.materialize at h
  split at h
  · obtain ⟨v, -, h⟩ := bind_eq_ok_iff.mp h
    cases h
    rfl
  · cases h
    rfl

/-- Nothing is applied to the example that a type derives. -/
theorem addDerived_same {load : Include} {declared : String → Option TypeNode} {names : List String}
    {t t' : TypeNode} {added : Bool} {lead : String} {targets : List Target}
    (h : t.addDerived load declared names = .ok (t', added))
    : SameApplied (t.topSites lead targets) (t'.topSites lead targets) := by
  unfold TypeNode.addDerived at h
  split at h
  · cases h
    rfl
  rename_i none
  obtain ⟨v?, -, h⟩ := bind_eq_ok_iff.mp h
  cases v? with
  | none =>
      cases h
      rfl
  | some v =>
      cases h
      have bare := TypeNode.hasExamples_eq_false_iff.mp (Bool.not_eq_true _ ▸ none)
      have before : appliedOf (t.exampleSites lead) = [] := by
        rw [TypeNode.exampleSites, bare]
        rfl
      exact joins_sameApplied.append (a := [_, _]) (c := [_, _]) rfl before.symm

/-- Derived examples have no annotations, and the others keep theirs. -/
theorem fillExamples_relatesTop (source : Source) (s : Scope) {P : Site → Prop}
    : TypeHooks.RelatesTop (fun _ => True) P SameApplied s.lead
        { node := exampleOf source s } := by
  intro targets t _ _
  unfold TypeHooks.apply
  have node : Alike (fun _ => True) (exampleOf source s t) (exampleOf source s t) fun t' =>
      SameApplied (t.topSites s.lead targets) (t'.topSites s.lead targets) := by
    unfold exampleOf
    refine (mapExamplesM_same s.lead targets fun e e' => annotations_materialize).bind
      fun t₁ ⟨_, read⟩ => Alike.of_ok fun t' ok => ?_
    obtain ⟨⟨t₂, added⟩, derived, ok⟩ := bind_eq_ok_iff.mp ok
    cases ok
    exact (addDerived_same derived).trans read
  refine node.bind fun t₁ filled => ?_
  refine (mapExamplesM_same s.lead targets fun e e' ok => ?_).mono fun t' ⟨_, kept⟩ properties => ?_
  · cases ok
    rfl
  · exact kept.trans filled

/-- So filling in examples adds no annotations anywhere. -/
theorem fillExamples_gains (source : Source)
    {extra : Library → List Target → Annotation → Prop}
    : (fillExamples source).Relates (fun _ => True) (fun _ _ => True) fun l => Gains (extra l) := by
  have changes : (fillExamples source).ChangesTypes := {
    empties := ⟨fun _ => rfl, fun _ _ => rfl, rfl⟩
    annotationTypes := fun _ => rfl
    bodies := fun _ => rfl
    uriParameters := fun _ _ => rfl
    trait := fun _ _ => rfl }
  apply changes.relates
  · intro s targets t kind _
    have known : ∀ site ∈ t.sites s.lead targets, True := fun _ _ => trivial
    have visited := TypeHooks.visit_relates joins_sameApplied
      (fillExamples_relatesTop source s) (fun _ => rfl) targets kind known
    exact visited.mono fun t' same => Gains.of_eq same
  · intro s ps _
    have known : ∀ site ∈ propertySites s.lead ps, True := fun _ _ => trivial
    have visited := TypeHooks.visitProperties_relates joins_sameApplied
      (fillExamples_relatesTop source s) (fun _ => rfl) known
    exact visited.mono fun ps' same => Gains.of_eq same
  · intro s targets g _
    exact Alike.ok (Gains.of_eq rfl)

/-- Nor does reading the examples of declared types in advance. -/
theorem materializeTypes_same {load : Include} {types types' : Types}
    (h : (types.mapM fun (name, t) => do return (name, ← t.materialize load)) = .ok types')
    (lead : String)
    : SameApplied (types.flatMap fun entry => entry.2.sites lead [.typeDeclaration])
        (types'.flatMap fun entry => entry.2.sites lead [.typeDeclaration]) := by
  let places (types : Types) : List Site :=
    types.flatMap fun entry => entry.2.sites lead [.typeDeclaration]
  suffices read : Alike (fun _ => True)
      (types.mapM fun (name, t) => do return (name, ← t.materialize load))
      (types.mapM fun (name, t) => do return (name, ← t.materialize load))
      fun types' => SameApplied (places types) (places types') from
    read.result types' h
  apply joins_sameApplied.mapM fun entry : String × TypeNode =>
    entry.2.sites lead [.typeDeclaration]
  intro (name, t) _
  refine (mapExamplesM_same lead [.typeDeclaration] fun e e' => annotations_materialize).bind
    fun t' ⟨properties, read⟩ => Alike.ok ?_
  show SameApplied (t.sites lead _) (t'.sites lead _)
  rw [t.sites_eq_top, t'.sites_eq_top, properties]
  exact joins_sameApplied.append read rfl

end Pass

-----------------------------------------------------------------------------------------
-- Documents
-----------------------------------------------------------------------------------------

/-- The same annotations stand at both lists of places, in another order perhaps. -/
abbrev Site.Keeps : List Site → List Site → Prop := Gains fun _ _ => False

theorem Site.Keeps.trans {a b c : List Site} (h : Keeps a b) (h' : Keeps b c) : Keeps a c :=
  Becomes.trans_gains h h'

namespace Document

variable {target : Target} {d d' f s : Document}

/-- What a declared trait shares stands in the document itself. -/
theorem applies_of_shares {path : List String} {l : Library} {here : List Target} {a : Annotation}
    (reaches : d.library.Reaches path l) (h : l.Shares here a)
    : ∃ more m, d.Applies target (path ++ more) m here a := by
  obtain ⟨more, m, further, member⟩ := h
  refine ⟨more, m, .of_own (reaches.trans further) ?_⟩
  simp only [Library.ownSites, Site.appliedOf_append]
  exact List.mem_append_left _ (List.mem_append_left _ (List.mem_append_right _ member))

/-- A pass that keeps annotations part by part keeps those of the whole document. -/
theorem keeps_of_run {p : Pass}
    (relates : p.Relates (fun _ => True) (fun _ _ => True) fun _ => Site.Keeps)
    (h : p.run target d = .ok d')
    : d.Related Site.Keeps target d' :=
  (relates.run target fun _ _ _ _ _ => trivial).result d' h

/-- Reading the examples of declared types leaves annotations as they are. -/
theorem keeps_of_materialize (target : Target) {source : Source} {directory : Path} {l' : Library}
    (h : d.library.materialize source directory = .ok l')
    : d.Related Site.Keeps target { d with library := l' } := by
  refine (Library.corresponds_of_materialize h).mono ?_
  intro path m m' _ ⟨directory, read⟩
  obtain ⟨ok, -, same⟩ := Library.eq_of_materialize read
  have types := Pass.materializeTypes_same ok (leadFrom "" path)
  rw [same]
  refine ⟨⟨rfl, rfl⟩, Gains.of_eq ?_⟩
  simp only [sitesIn, Library.ownSites, Site.appliedOf_append]
  rw [types]

end Document

namespace Parser

variable {p : Parser} {target : Target} {mediaTypes : Option (List String)} {d n f s d' : Document}

/-- All passes behind the linking of annotations keep them. -/
theorem keeps_of_finish (h : p.finish target s = .ok d') : s.Related Site.Keeps target d' := by
  obtain ⟨d₁, parameters, h⟩ := bind_eq_ok_iff.mp h
  obtain ⟨l, read, examples⟩ := bind_eq_ok_iff.mp h
  have first := Document.keeps_of_run Pass.fillUriParameters_gains parameters
  have second := Document.keeps_of_materialize target read
  have third := Document.keeps_of_run (Pass.fillExamples_gains p.source) examples
  exact (first.trans second fun _ _ _ => Site.Keeps.trans).trans third fun _ _ _ => Site.Keeps.trans

/-- What stands in a document when it is complete stood there when types were filled in, or at a
declared trait. -/
theorem Phases.gains (phases : p.Phases target mediaTypes d n f s d') (bare : f.BareUses target)
    : f.library.Corresponds (fun path l l' => l.SameNames l'
        ∧ Gains l.Shares (f.sitesIn target path l) (d'.sitesIn target path l')) d'.library := by
  have known : ∀ path l, f.library.Reaches path l → ∀ site ∈ f.sitesIn target path l,
      BareUses site.traits := by
    intro path l reaches site inside lead t here
    exact bare path l reaches lead t (List.mem_flatMap.mpr ⟨site, inside, here⟩)
  have substituted := (Pass.fillTraits_gains.run target known).result s phases.substituted
  refine (substituted.trans (keeps_of_finish phases.finished)).mono ?_
  intro path l l'' _ ⟨l', ⟨names, gains⟩, names', keeps⟩
  refine ⟨names.trans names', gains.trans_gains ?_⟩
  exact keeps.mono (fun _ _ _ => id) fun _ _ => False.elim

end Parser

end Raml
