import Raml.Proofs.Annotations.Applied
import Raml.Proofs.Documents.Hooks
import Raml.Proofs.Documents.Survey

/-! What passes do to annotations, in a survey: those at the places of a node are changed one by one,
and there may be others that are taken from elsewhere.

A pass over types goes through their properties at every depth: what is known of a type by itself is
known of those of its properties as well.
-/

namespace Raml

variable {allowed : Error → Prop}

-----------------------------------------------------------------------------------------
-- The places of a type by itself
-----------------------------------------------------------------------------------------

/-- What the place of a type counts as: that of a type or a property, of a body, or of the
declaration of an annotation. -/
inductive Target.OfType : List Target → Prop where
  | declaration : OfType [.typeDeclaration]
  | body (site : Target) : OfType [.typeDeclaration, site]
  | annotationType : OfType [.annotationType]

/-- No place of a type is that of an example. -/
theorem Target.OfType.ne_example {targets : List Target} (h : OfType targets)
    : targets ≠ [.example] := by
  cases h <;> simp

namespace TypeNode

/-- The places of a type's examples. -/
def exampleSites (lead : String) (t : TypeNode) : List Site :=
  t.allExamples.map fun e => .annotations lead [.example] e.annotations

/-- The places of a type but for those of its properties. -/
def topSites (lead : String) (targets : List Target) (t : TypeNode) : List Site :=
  .typeNode t :: .annotations lead targets t.declaration.annotations :: t.exampleSites lead

/-- The places of a type are its own ones and those of its properties. -/
theorem sites_eq_top (lead : String) (targets : List Target) (t : TypeNode)
    : t.sites lead targets = t.topSites lead targets ++ propertySites lead t.properties := by
  rw [sites_eq, topSites, exampleSites]

variable {R : List Site → List Site → Prop}

/-- Where each example comes to have related places, so do all of them. -/
theorem mapExamplesM_relates (joins : Site.Joins R) (lead : String)
    {f : Example → Except Error Example} {t : TypeNode}
    (each : ∀ e ∈ t.allExamples, Alike allowed (f e) (f e) fun e' =>
      R [.annotations lead [.example] e.annotations] [.annotations lead [.example] e'.annotations])
    : Alike allowed (t.mapExamplesM f) (t.mapExamplesM f) fun t' =>
        ∃ example? examples, t' = t.withExamples example? examples
          ∧ R (t.exampleSites lead) (t'.exampleSites lead) := by
  let place (e : Example) : List Site := [.annotations lead [.example] e.annotations]
  have single : Alike allowed (t.declaration.example?.mapM f) (t.declaration.example?.mapM f)
      fun example? => R (t.declaration.example?.toList.flatMap place)
        (example?.toList.flatMap place) := by
    cases own : t.declaration.example? with
    | none => exact Alike.ok joins.nil
    | some e =>
        rw [Option.mapM_some]
        refine Alike.map ((each e ?_).mono fun e' related => ?_)
        · simp [allExamples, own]
        · simpa [place] using related
  refine single.bind fun example? single => ?_
  refine (joins.mapM (fun entry : String × Example => place entry.2) fun entry member => ?_).bind
    fun examples named => Alike.ok ⟨example?, examples, rfl, ?_⟩
  · refine (each entry.2 ?_).bind fun e' related => Alike.ok related
    exact List.mem_append_right _ (List.mem_map_of_mem member)
  · simp only [exampleSites, allExamples, List.map_append, List.map_map]
    simp only [List.map_eq_flatMap]
    exact joins.append single named

end TypeNode

-----------------------------------------------------------------------------------------
-- Types with their properties
-----------------------------------------------------------------------------------------

namespace TypeHooks

variable {R : List Site → List Site → Prop} {P : Site → Prop} {h : TypeHooks} {lead : String}

/-- What hooks do to the places of one type. -/
def RelatesTop (allowed : Error → Prop) (P : Site → Prop) (R : List Site → List Site → Prop)
    (lead : String) (h : TypeHooks) : Prop :=
  ∀ targets t, Target.OfType targets → (∀ site ∈ t.topSites lead targets, P site)
    → Alike allowed (h.apply targets t) (h.apply targets t) fun t' =>
        ∀ properties, R (t.topSites lead targets) ((t'.withProperties properties).topSites lead targets)

/-- What a visit does to the type of each property, it does to all of them in order. -/
theorem visitTypes_relates (joins : Site.Joins R) (lead : String) {properties : Properties}
    (each : ∀ key p, (key, p) ∈ properties →
      Alike allowed (p.type.visit h [.typeDeclaration]) (p.type.visit h [.typeDeclaration])
        fun type => R (p.type.sites lead [.typeDeclaration]) (type.sites lead [.typeDeclaration]))
    : Alike allowed (visitTypes h properties) (visitTypes h properties) fun types =>
        R (propertySites lead properties) (propertySites lead (properties.withTypes types)) := by
  induction properties with
  | nil => exact Alike.ok joins.nil
  | cons entry properties ih =>
      obtain ⟨key, ⟨type, required, name⟩⟩ := entry
      have rest := ih fun key p member => each key p (List.mem_cons_of_mem _ member)
      refine (each key _ List.mem_cons_self).bind fun type first => rest.bind fun types all => ?_
      exact Alike.ok (joins.append first all)

/-- What hooks do to the places of one type, a visit does to those of a type at every depth, by
induction on the type. -/
theorem visit_relates (joins : Site.Joins R) (top : h.RelatesTop allowed P R lead)
    (plain : ∀ properties, h.properties properties = .ok properties) (targets : List Target)
    (kind : Target.OfType targets) {t : TypeNode} (known : ∀ site ∈ t.sites lead targets, P site)
    : Alike allowed (t.visit h targets) (t.visit h targets) fun t' =>
        R (t.sites lead targets) (t'.sites lead targets) := by
  induction t using TypeNode.induct generalizing targets with
  | step t ih =>
      rw [TypeNode.sites_eq_top] at known
      obtain ⟨own, inside⟩ := List.forall_mem_append.mp known
      rw [propertySites_eq, List.forall_mem_flatMap] at inside
      have each := visitTypes_relates joins lead fun key p member =>
        ih key p member [.typeDeclaration] .declaration (inside _ member)
      rw [TypeNode.visit_eq, plain]
      refine (top targets t kind own).bind fun visited related => ?_
      refine each.bind fun types all => Alike.ok ?_
      rw [TypeNode.sites_eq_top, TypeNode.sites_eq_top]
      exact joins.append (related _) all

/-- The same for properties that stand by themselves. -/
theorem visitProperties_relates (joins : Site.Joins R) (top : h.RelatesTop allowed P R lead)
    (plain : ∀ properties, h.properties properties = .ok properties) {properties : Properties}
    (known : ∀ site ∈ propertySites lead properties, P site)
    : Alike allowed (properties.visit h) (properties.visit h) fun properties' =>
        R (propertySites lead properties) (propertySites lead properties') := by
  rw [propertySites_eq, List.forall_mem_flatMap] at known
  have each := visitTypes_relates joins lead fun key p member =>
    visit_relates joins top plain [.typeDeclaration] .declaration (known _ member)
  rw [Properties.visit, plain]
  exact each.bind fun types all => Alike.ok all

end TypeHooks

-----------------------------------------------------------------------------------------
-- Places
-----------------------------------------------------------------------------------------

namespace Site

/-- Annotations go from the first places to the second ones, where they are what `change` relates to
them. Nothing else stands at the second places but what is `extra`. -/
structure Becomes (change : List Target → Annotation → Annotation → Prop)
    (extra : List Target → Annotation → Prop) (a b : List Site) : Prop where
  forward (targets : List Target) (x : Annotation) (h : (targets, x) ∈ appliedOf a)
    : ∃ y, (targets, y) ∈ appliedOf b ∧ change targets x y
  backward (targets : List Target) (y : Annotation) (h : (targets, y) ∈ appliedOf b)
    : (∃ x, (targets, x) ∈ appliedOf a ∧ change targets x y) ∨ extra targets y

variable {change : List Target → Annotation → Annotation → Prop}
variable {extra : List Target → Annotation → Prop} {a b c d : List Site}

theorem Becomes.of_nil (first : appliedOf a = []) (second : appliedOf b = [])
    : Becomes change extra a b := by
  constructor <;> simp [first, second]

/-- Places may be taken together, since annotations stay on their side. -/
theorem Becomes.append (first : Becomes change extra a c) (rest : Becomes change extra b d)
    : Becomes change extra (a ++ b) (c ++ d) := by
  constructor
  · intro targets x h
    rw [appliedOf_append] at h ⊢
    rcases List.mem_append.mp h with h | h
    · obtain ⟨y, member, changed⟩ := first.forward targets x h
      exact ⟨y, List.mem_append_left _ member, changed⟩
    · obtain ⟨y, member, changed⟩ := rest.forward targets x h
      exact ⟨y, List.mem_append_right _ member, changed⟩
  · intro targets y h
    rw [appliedOf_append] at h ⊢
    rcases List.mem_append.mp h with h | h
    · rcases first.backward targets y h with ⟨x, member, changed⟩ | more
      · exact Or.inl ⟨x, List.mem_append_left _ member, changed⟩
      · exact Or.inr more
    · rcases rest.backward targets y h with ⟨x, member, changed⟩ | more
      · exact Or.inl ⟨x, List.mem_append_right _ member, changed⟩
      · exact Or.inr more

theorem joins_becomes : Joins (Becomes change extra) := ⟨.of_nil rfl rfl, Becomes.append⟩

/-- Annotations stay as they are, and there may be others that are `extra`. -/
abbrev Gains (extra : List Target → Annotation → Prop) : List Site → List Site → Prop :=
  Becomes (fun _ x y => y = x) extra

theorem gains_iff
    : Gains extra a b
      ↔ appliedOf a ⊆ appliedOf b
        ∧ ∀ targets y, (targets, y) ∈ appliedOf b → (targets, y) ∈ appliedOf a ∨ extra targets y := by
  constructor
  · intro gains
    constructor
    · intro (targets, x) member
      obtain ⟨_, kept, rfl⟩ := gains.forward targets x member
      exact kept
    · intro targets y member
      rcases gains.backward targets y member with ⟨_, own, rfl⟩ | more
      · exact Or.inl own
      · exact Or.inr more
  · rintro ⟨kept, others⟩
    constructor
    · intro targets x member
      exact ⟨x, kept member, rfl⟩
    · intro targets y member
      exact (others targets y member).imp_left fun own => ⟨y, own, rfl⟩

theorem Gains.of_eq (h : appliedOf b = appliedOf a) : Gains extra a b :=
  gains_iff.mpr ⟨h ▸ List.Subset.refl _, fun _ _ member => Or.inl (h ▸ member)⟩

/-- More may become of annotations, and more may be extra. -/
theorem Becomes.mono {change' : List Target → Annotation → Annotation → Prop}
    {extra' : List Target → Annotation → Prop} (h : Becomes change extra a b)
    (weaken : ∀ targets x y, change targets x y → change' targets x y)
    (more : ∀ targets y, extra targets y → extra' targets y)
    : Becomes change' extra' a b := by
  constructor
  · intro targets x member
    obtain ⟨y, member, changed⟩ := h.forward targets x member
    exact ⟨y, member, weaken _ _ _ changed⟩
  · intro targets y member
    rcases h.backward targets y member with ⟨x, member, changed⟩ | taken
    · exact Or.inl ⟨x, member, weaken _ _ _ changed⟩
    · exact Or.inr (more _ _ taken)

theorem Gains.becomes (h : Gains extra a b) (same : ∀ targets x, change targets x x)
    : Becomes change extra a b :=
  h.mono (fun targets x _ kept => kept ▸ same targets x) fun _ _ => id

/-- Annotations that are changed and stay as they are afterwards have been changed once. -/
theorem Becomes.trans_gains (h : Becomes change extra a b) (h' : Gains extra b c)
    : Becomes change extra a c := by
  obtain ⟨kept, others⟩ := gains_iff.mp h'
  constructor
  · intro targets x member
    obtain ⟨y, member, changed⟩ := h.forward targets x member
    exact ⟨y, kept member, changed⟩
  · intro targets y member
    rcases others targets y member with before | more
    · exact h.backward targets y before
    · exact Or.inr more

/-- What is gained is changed like all others. -/
theorem Gains.trans_becomes (h : Gains extra a b) (h' : Becomes change (fun _ _ => False) b c)
    : Becomes change (fun targets y => ∃ x, extra targets x ∧ change targets x y) a c := by
  obtain ⟨kept, others⟩ := gains_iff.mp h
  constructor
  · intro targets x member
    exact h'.forward targets x (kept member)
  · intro targets y member
    obtain ⟨x, member, changed⟩ := (h'.backward targets y member).resolve_right id
    exact (others targets x member).imp (fun before => ⟨x, before, changed⟩)
      fun more => ⟨x, more, changed⟩

/-- The annotations at one place are changed one by one. -/
theorem Becomes.annotations {f : Annotation → Annotation} {targets : List Target} {g : Annotations}
    (each : ∀ entry ∈ g, change targets entry.2 (f entry.2)) (lead : String)
    : Becomes change extra [.annotations lead targets g]
        [.annotations lead targets (Keyed.mapValues f g)] := by
  have changed : appliedOf [.annotations lead targets (Keyed.mapValues f g)]
      = g.map fun entry => (targets, f entry.2) := by
    simp [Keyed.mapValues, Function.comp_def]
  constructor
  · intro kind x member
    simp only [appliedOf_cons, applied, appliedOf_nil, List.append_nil, List.mem_map] at member
    obtain ⟨entry, inside, same⟩ := member
    cases same
    rw [changed]
    exact ⟨_, List.mem_map.mpr ⟨entry, inside, rfl⟩, each entry inside⟩
  · intro kind y member
    rw [changed] at member
    obtain ⟨entry, inside, same⟩ := List.mem_map.mp member
    cases same
    refine Or.inl ⟨entry.2, ?_, each entry inside⟩
    simpa using ⟨entry.1, inside⟩

/-- What stands behind some namespaces does not depend on them. -/
theorem Becomes.withLead (h : Becomes change extra a b) (lead : String)
    : Becomes change extra (a.map (Site.withLead lead)) (b.map (Site.withLead lead)) := by
  constructor
  · simpa only [appliedOf_withLead] using h.forward
  · simpa only [appliedOf_withLead] using h.backward

end Site

open Site (Becomes appliedOf)

/-- No annotations stand in a method in which nothing stands. -/
theorem Method.Blank.appliedOf_sites {m : Method} (blank : m.Blank) (lead : String)
    (target : Target)
    : appliedOf (m.sites lead target) = [] := by
  rw [sites_eq, blank.annotations, blank.queryParameters, blank.headers, blank.is, blank.bodies,
    blank.responses]
  rfl

-----------------------------------------------------------------------------------------
-- Passes
-----------------------------------------------------------------------------------------

namespace Pass

/-- A pass changes nothing but types, properties and annotations. -/
structure ChangesTypes (p : Pass) : Prop where
  empties : p.Empties
  annotationTypes (types : AnnotationTypes) : p.annotationTypes types = types
  bodies (bodies : Bodies) : p.bodies bodies = .ok bodies
  uriParameters (key : String) (ps : Properties) : p.uriParameters key ps = ps
  trait (s : Scope) (t : Trait) : p.trait s t = .ok none

variable {P : Library → Site → Prop} {p : Pass}
variable {change : Library → List Target → Annotation → Annotation → Prop}
variable {extra : Library → List Target → Annotation → Prop}

/-- Such a pass is known by what it does to types, properties and annotations. -/
theorem ChangesTypes.relates (changes : p.ChangesTypes)
    (type : ∀ s targets t, Target.OfType targets
      → (∀ site ∈ t.sites s.lead targets, P s.library site)
      → Alike allowed (p.type s targets t) (p.type s targets t) fun t' =>
          Becomes (change s.library) (extra s.library) (t.sites s.lead targets)
            (t'.sites s.lead targets))
    (properties : ∀ s ps, (∀ site ∈ propertySites s.lead ps, P s.library site)
      → Alike allowed (p.properties s ps) (p.properties s ps) fun ps' =>
          Becomes (change s.library) (extra s.library) (propertySites s.lead ps)
            (propertySites s.lead ps'))
    (annotations : ∀ s targets g, P s.library (.annotations s.lead targets g)
      → Alike allowed (p.annotations s targets g) (p.annotations s targets g) fun g' =>
          Becomes (change s.library) (extra s.library) [.annotations s.lead targets g]
            [.annotations s.lead targets g'])
    : p.Relates allowed P fun l => Becomes (change l) (extra l) where
  joins _ := Site.joins_becomes
  empties := changes.empties
  type s t h := type s _ t .declaration h
  properties := properties
  parameters s key ps h := by
    rw [changes.uriParameters]
    exact properties s ps h
  annotations := annotations
  annotationTypes s types h := by
    rw [changes.annotationTypes]
    apply onValues_relates Site.joins_becomes fun a : AnnotationType =>
      a.type.sites s.lead [.annotationType]
    intro entry member
    refine (type s _ entry.2.type .annotationType (h entry member)).bind fun t' related => ?_
    exact Alike.ok related
  bodies s site bodies h := by
    rw [onBodies, changes.bodies, ok_bind]
    refine (onValues_relates Site.joins_becomes (·.sites s.lead [.typeDeclaration, site])
      fun entry member => ?_).mono fun _ related => related.2
    apply type s _ entry.2 (.body site)
    intro place inside
    exact h place (List.mem_flatMap.mpr ⟨entry, member, inside⟩)
  trait s t _ := by
    rw [changes.trait]
    apply Alike.ok
    intro done same
    cases same
  traitNode _ _ _ _ _ := .of_nil rfl rfl
  method _ _ _ := .of_nil rfl rfl

end Pass

end Raml
