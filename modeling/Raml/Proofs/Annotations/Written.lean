import Raml.Proofs.Annotations.Passes
import Raml.Proofs.Documents.Spelled

/-! Annotations in what is read from files: none of them is linked to a declaration, and bringing a
document into normal form does not link any.
-/

namespace Raml

open Raml.TypeName (leadFrom)
open Site (appliedOf)
open Yaml (Node)

-----------------------------------------------------------------------------------------
-- Places
-----------------------------------------------------------------------------------------

/-- No annotation has a declaration yet. -/
def Annotations.Loose (g : Annotations) : Prop := ∀ entry ∈ g, entry.2.declared = none

/-- No annotation at any of the places has a declaration yet. -/
def Site.Loose (sites : List Site) : Prop := ∀ x ∈ appliedOf sites, x.2.declared = none

namespace Site

@[simp] theorem loose_nil : Loose [] := nofun

@[simp] theorem loose_append {a b : List Site} : Loose (a ++ b) ↔ Loose a ∧ Loose b := by
  simp [Loose, or_imp, forall_and]

@[simp] theorem loose_flatMap {α : Type} {list : List α} {places : α → List Site}
    : Loose (list.flatMap places) ↔ ∀ a ∈ list, Loose (places a) := by
  simp only [Loose, appliedOf_flatMap, List.forall_mem_flatMap]

theorem loose_cons {site : Site} {sites : List Site}
    : Loose (site :: sites) ↔ (∀ x ∈ site.applied, x.2.declared = none) ∧ Loose sites := by
  rw [Loose, appliedOf_cons, List.forall_mem_append, Loose]

@[simp] theorem loose_annotations {lead : String} {targets : List Target} {g : Annotations}
    {sites : List Site}
    : Loose (.annotations lead targets g :: sites) ↔ g.Loose ∧ Loose sites := by
  rw [loose_cons, applied, List.forall_mem_map, Annotations.Loose]

@[simp] theorem loose_trait {lead : String} {t : Trait} {sites : List Site}
    : Loose (.trait lead t :: sites) ↔ Loose sites :=
  loose_cons.trans (and_iff_right nofun)

@[simp] theorem loose_method {m : Method} {sites : List Site}
    : Loose (.method m :: sites) ↔ Loose sites :=
  loose_cons.trans (and_iff_right nofun)

/-- Places are loose if each of them is. -/
theorem loose_iff_all {sites : List Site}
    : Loose sites ↔ Site.All (fun site => ∀ x ∈ site.applied, x.2.declared = none) sites :=
  List.forall_mem_flatMap

/-- Leads link nothing. -/
theorem loose_withLead {lead : String} {sites : List Site}
    : Loose (sites.map (Site.withLead lead)) ↔ Loose sites := by
  rw [Loose, appliedOf_withLead, Loose]

@[simp] theorem loose_typeNode {t : TypeNode} {sites : List Site}
    : Loose (.typeNode t :: sites) ↔ Loose sites :=
  loose_cons.trans (and_iff_right nofun)

end Site

/-- Nothing that is applied to a type, or in it, has a declaration yet. -/
abbrev TypeNode.Loose (t : TypeNode) : Prop := ∀ lead targets, Site.Loose (t.sites lead targets)

abbrev Properties.Loose (properties : Properties) : Prop :=
  ∀ lead, Site.Loose (propertySites lead properties)

/-- Nothing that is applied to a type or to its examples has a declaration yet. -/
structure Declaration.Loose (d : Declaration) : Prop where
  annotations : Annotations.Loose d.annotations
  examples : ∀ e ∈ d.example?.toList ++ d.examples.map (·.2), Annotations.Loose e.annotations

/-- The examples of a type are loose if all their annotations are. -/
theorem TypeNode.loose_exampleSites_iff {lead : String} {t : TypeNode}
    : Site.Loose (t.exampleSites lead)
      ↔ ∀ e ∈ t.allExamples, Annotations.Loose e.annotations := by
  rw [exampleSites, List.map_eq_flatMap, Site.loose_flatMap]
  simp

/-- A type is loose if its declaration is and the types of its properties are. -/
theorem TypeNode.loose_sites_iff {lead : String} {targets : List Target} {t : TypeNode}
    : Site.Loose (t.sites lead targets)
      ↔ t.declaration.Loose ∧ Site.Loose (propertySites lead t.properties) := by
  rw [sites_eq_top, topSites, List.cons_append, List.cons_append, Site.loose_typeNode,
    Site.loose_annotations, Site.loose_append, loose_exampleSites_iff, ← and_assoc]
  constructor
  · rintro ⟨⟨annotations, examples⟩, properties⟩
    exact ⟨⟨annotations, examples⟩, properties⟩
  · rintro ⟨declaration, properties⟩
    exact ⟨⟨declaration.annotations, declaration.examples⟩, properties⟩

theorem TypeNode.loose_iff {t : TypeNode}
    : t.Loose ↔ t.declaration.Loose ∧ Properties.Loose t.properties := by
  constructor
  · intro loose
    refine ⟨(loose_sites_iff.mp (loose "" [])).1, fun lead => ?_⟩
    exact (loose_sites_iff.mp (loose lead [])).2
  · rintro ⟨declaration, properties⟩ lead targets
    exact loose_sites_iff.mpr ⟨declaration, properties lead⟩

/-- What is seen behind some namespaces is seen behind all others. -/
theorem Properties.loose_of_sites {lead : String} {properties : Properties}
    (h : Site.Loose (propertySites lead properties))
    : properties.Loose := by
  intro other
  rw [sites_withLead, Site.loose_withLead] at h ⊢
  exact h

/-- Whether a type is loose does not depend on where it stands. -/
theorem TypeNode.loose_of_sites {lead : String} {targets : List Target} {t : TypeNode}
    (h : Site.Loose (t.sites lead targets))
    : t.Loose :=
  have ⟨declaration, properties⟩ := loose_sites_iff.mp h
  loose_iff.mpr ⟨declaration, Properties.loose_of_sites properties⟩

/-- A name has nothing to do with annotations. -/
theorem TypeNode.loose_setName {t : TypeNode} (declaration : t.declaration.Loose)
    (properties : Properties.Loose t.properties) (name : String)
    : (t.setName name).Loose :=
  loose_iff.mpr ⟨⟨declaration.annotations, declaration.examples⟩, properties⟩

theorem TypeNode.loose_empty : TypeNode.empty.Loose :=
  loose_iff.mpr ⟨⟨nofun, nofun⟩, fun _ => Site.loose_nil⟩

theorem TypeNode.loose_ofName (name : String) : (TypeNode.ofName name).Loose :=
  loose_setName (t := .empty) ⟨nofun, nofun⟩ (fun _ => Site.loose_nil) name

theorem Properties.loose_iff {lead : String} {properties : Properties}
    : Site.Loose (propertySites lead properties)
      ↔ ∀ entry ∈ properties, Site.Loose (entry.2.type.sites lead [.typeDeclaration]) := by
  rw [propertySites_eq, Site.loose_flatMap]

theorem Properties.Loose.of_types {properties : Properties}
    (each : ∀ key p, (key, p) ∈ properties → p.type.Loose)
    : properties.Loose :=
  fun lead => loose_iff.mpr fun entry member => each entry.1 entry.2 member lead _

-----------------------------------------------------------------------------------------
-- Decoding
-----------------------------------------------------------------------------------------

namespace Decode

variable {node : Node}

/-- Annotations are decoded without declarations. What follows is the same for whatever has
annotations. -/
theorem annotations_loose (f : Fields node) : Yields f.annotations Annotations.Loose := by
  intro g ok entry member
  have unlinked := collect_yields (P := fun a : Annotation => a.declared = none) f Annotation.isKey
    (fun _ inner _ => ?_) g ok
  · exact unlinked.2 _ _ member
  · split
    · exact Yields.ok rfl
    · exact Yields.map fun _ _ => rfl

/-- An example without annotations. -/
theorem plainExample_loose (node : Node) (path : String)
    : Yields (do
        match ← includedPath? node path with
        | some file => return some (.ofPath file)
        | none => return some (.ofValue (← Value.ofNode node)))
      fun e? : Option Example => ∀ e ∈ e?, Annotations.Loose e.annotations := by
  have none : Annotations.Loose [] := by
    intro entry member
    cases member
  refine Yields.skip fun included => ?_
  split
  · apply Yields.ok
    intro e same
    cases same
    exact none
  · refine Yields.skip fun v => Yields.ok ?_
    intro e same
    cases same
    exact none

theorem example_loose (node : Node) (path : String)
    : Yields (example? node path) fun e? => ∀ e ∈ e?, Annotations.Loose e.annotations := by
  unfold example?
  split
  · exact Yields.ok nofun
  · split
    · refine Yields.skip fun f => Yields.skip fun e => Yields.skip fun displayName => ?_
      refine Yields.skip fun description => Yields.skip fun strict => ?_
      refine Yields.bind (annotations_loose f) fun annotations loose => Yields.ok ?_
      intro e same
      cases same
      exact loose
    · exact plainExample_loose _ _
  · exact plainExample_loose _ _

theorem examples_loose (node : Node) (path : String)
    : Yields (examples node path) fun examples =>
        ∀ entry ∈ examples, Annotations.Loose entry.2.annotations := by
  have each (entry : String × Inside node)
      : Yields (do return (entry.1, ← example? entry.2.1 (fieldPath path entry.1)))
        fun found : String × Option Example =>
          ∀ e ∈ found.2, Annotations.Loose e.annotations :=
    Yields.bind (example_loose entry.2.1 _) fun _ loose => Yields.ok loose
  refine Yields.skip fun f => ?_
  refine Yields.bind (Yields.mapM fun entry _ => each entry) fun found loose => Yields.ok ?_
  intro entry member
  obtain ⟨⟨name, _⟩, inside, same⟩ := List.mem_filterMap.mp (Keyed.mem_of_mem_ofPairs member)
  obtain ⟨e, present, rfl⟩ := Option.map_eq_some_iff.mp same
  exact loose _ inside e present

theorem declaration_loose (f : Fields node) : Yields (declaration f) Declaration.Loose := by
  refine Yields.skip fun default? => Yields.skip fun schema => ?_
  refine Yields.bind (orElse_yields f "example" nofun fun inner path =>
    example_loose inner.1 path) fun single ofSingle => ?_
  refine Yields.bind (orElse_yields f "examples" nofun fun inner path =>
    examples_loose inner.1 path) fun examples ofExamples => ?_
  refine Yields.skip fun displayName => Yields.skip fun description => ?_
  refine Yields.bind (annotations_loose f) fun annotations own => ?_
  refine Yields.skip fun facets => Yields.skip fun xml => Yields.ok ⟨own, ?_⟩
  intro e member
  rcases List.mem_append.mp member with here | here
  · exact ofSingle e (Option.mem_toList.mp here)
  · obtain ⟨entry, inside, rfl⟩ := List.mem_map.mp here
    exact ofExamples entry inside

/-- A type that is put together of a declaration and properties is as loose as these. -/
theorem typeWithProperties_loose (f : Fields node) (name : String) {d : Declaration}
    {properties : Properties} (declaration : d.Loose) (each : properties.Loose)
    : Yields (typeWithProperties f name d properties) TypeNode.Loose := by
  refine Yields.bind (objectFacets_yields f properties) fun object same => ?_
  refine Yields.skip fun values => Yields.skip fun pattern => Yields.skip fun array => ?_
  refine Yields.skip fun fileTypes => Yields.skip fun minLength => Yields.skip fun maxLength => ?_
  have own : Properties.Loose object.properties := same ▸ each
  apply Yields.ok
  generalize (if name.isEmpty && !properties.isEmpty then "object" else name) = called
  split
  · apply TypeNode.loose_setName
    · exact declaration
    · exact own
  · apply TypeNode.loose_setName
    · exact declaration
    · exact own

/-- The properties of a type are nodes further in, so what is known of these is taken from an
induction. -/
theorem typeFields_loose (f : Fields node)
    (inside : ∀ inner : Inside node, ∀ path, Yields (properties inner.1 path) Properties.Loose)
    : Yields (typeFields node f) TypeNode.Loose := by
  rw [typeFields]
  refine Yields.skip fun name => ?_
  refine Yields.bind (declaration_loose f) fun declaration loose => ?_
  split
  · exact Yields.bind (inside _ _) fun properties each => typeWithProperties_loose f _ loose each
  · exact typeWithProperties_loose f _ loose fun _ => Site.loose_nil

theorem typeNode_loose_of_inside (node : Node) (path : String)
    (inside : ∀ inner : Inside node, ∀ path, Yields (properties inner.1 path) Properties.Loose)
    : Yields (typeNode node path) TypeNode.Loose := by
  cases node with
  | null =>
      rw [typeNode]
      exact Yields.ok TypeNode.loose_empty
  | map entries =>
      rw [typeNode]
      exact Yields.skip fun f => typeFields_loose f inside
  | bool b =>
      rw [typeNode]
      exact Yields.map fun name _ => TypeNode.loose_ofName name
  | num n =>
      rw [typeNode]
      exact Yields.map fun name _ => TypeNode.loose_ofName name
  | str s =>
      rw [typeNode]
      exact Yields.map fun name _ => TypeNode.loose_ofName name
  | seq nodes => simpa [typeNode] using Yields.error _
  | tagged tag content => simpa [typeNode] using Yields.error _

theorem property_loose_of_inside (name : String) (node : Node) (path : String)
    (inside : ∀ inner : Inside node, ∀ path, Yields (properties inner.1 path) Properties.Loose)
    : Yields (property name node path) fun p => p.type.Loose := by
  unfold property
  split
  · refine Yields.skip fun f => Yields.skip fun required => ?_
    exact Yields.bind (typeFields_loose f inside) fun type loose => Yields.ok loose
  · exact Yields.bind (typeNode_loose_of_inside node path inside) fun type loose => Yields.ok loose

/-- By induction on the size of nodes, as above. -/
theorem properties_loose (node : Node) (path : String)
    : Yields (properties node path) Properties.Loose := by
  induction size : sizeOf node using Nat.strongRecOn generalizing node path with
  | ind n ih =>
      have table : Yields (properties node path) (Table fun p => p.type.Loose) := by
        rw [properties]
        refine each_yields node path fun key inner path => ?_
        refine property_loose_of_inside key inner.1 path fun deeper path => ?_
        exact ih _ (size ▸ Nat.lt_trans deeper.2 inner.2) deeper.1 path rfl
      exact fun properties ok => .of_types (table properties ok).2

/-- By induction on the size of nodes, from the types of properties to the type itself. -/
theorem typeNode_loose (node : Node) (path : String) : Yields (typeNode node path) TypeNode.Loose :=
  typeNode_loose_of_inside node path fun inner path => properties_loose inner.1 path

theorem annotationType_loose (node : Node) (path : String)
    : Yields (annotationType node path) fun a => a.type.Loose := by
  unfold annotationType
  split
  · refine Yields.skip fun f => Yields.skip fun targets => ?_
    have type := typeFields_loose f fun inner path => properties_loose inner.1 path
    exact Yields.bind type fun type loose => Yields.ok loose
  · exact Yields.bind (typeNode_loose node path) fun type loose => Yields.ok loose

/-- Whatever is decoded, no annotation has a declaration yet. -/
theorem spells_loose : Spells fun site => ∀ x ∈ site.applied, x.2.declared = none where
  typeNode node path := (typeNode_loose node path).mono fun _ loose lead targets =>
    Site.loose_iff_all.mp (loose lead targets)
  annotationType node path := (annotationType_loose node path).mono fun _ loose lead targets =>
    Site.loose_iff_all.mp (loose lead targets)
  properties node path := (properties_loose node path).mono fun _ loose lead =>
    Site.loose_iff_all.mp (loose lead)
  annotations f := (annotations_loose f).mono fun _ loose _ _ => List.forall_mem_map.mpr loose
  unannotated _ _ := by simp [Site.applied]
  trait _ _ := by simp [Site.applied]
  method _ := by simp [Site.applied]

end Decode

-----------------------------------------------------------------------------------------
-- Documents
-----------------------------------------------------------------------------------------

namespace Document

/-- No annotation in a document has a declaration yet. -/
def Loose (target : Target) (d : Document) : Prop :=
  ∀ path l, d.library.Reaches path l → Site.Loose (d.sitesIn target path l)

variable {target : Target} {d₀ d n : Document}

/-- In a loose document no annotation is linked, wherever it stands. -/
theorem Loose.applied (h : d.Loose target) {path : List String} {l : Library} {here : List Target}
    {x : Annotation} (applies : d.Applies target path l here x)
    : x.declared = none :=
  h path l applies.reaches (here, x) applies.member

/-- Once the libraries of a document are loaded, none of what is written is linked. -/
theorem Written.loose {p : Parser} (written : d₀.Written) (loads : p.Loads d₀ d)
    : d.Loose target :=
  fun _ _ reaches => Site.loose_iff_all.mpr (written.sites Decode.spells_loose loads reaches)

end Document

-----------------------------------------------------------------------------------------
-- Types and their properties
-----------------------------------------------------------------------------------------

/-- No annotation gets a declaration. -/
def Site.StaysLoose (a b : List Site) : Prop := Loose a → Loose b

/-- That nothing gets linked goes from parts to the whole. -/
theorem Site.joins_staysLoose : Joins StaysLoose where
  nil := id
  append first rest := by
    rw [StaysLoose, loose_append, loose_append]
    exact And.imp first rest

theorem TypeNode.mapExamplesM_loose {f : Example → Except Error Example} {t : TypeNode}
    (each : ∀ e, Annotations.Loose e.annotations
      → Yields (f e) fun e' => Annotations.Loose e'.annotations)
    (loose : t.declaration.Loose)
    : Yields (t.mapExamplesM f) fun t' =>
        t'.declaration.Loose ∧ t'.properties = t.properties := by
  have related := t.mapExamplesM_relates Site.joins_staysLoose "" fun e _ =>
    Alike.of_ok fun e' ok => by
      rw [Site.StaysLoose, Site.loose_annotations, Site.loose_annotations]
      exact And.imp_left fun own => each e own e' ok
  intro t' ok
  obtain ⟨example?, examples, rfl, stays⟩ := related.result t' ok
  have own := loose_exampleSites_iff.mp (stays (loose_exampleSites_iff.mpr loose.examples))
  exact ⟨⟨loose.annotations, own⟩, rfl⟩

namespace TypeHooks

/-- Hooks that leave types by themselves as they are, and link no annotations. -/
structure KeepsLoose (h : TypeHooks) : Prop where
  node (t : TypeNode) : h.node t = .ok t
  annotations (targets : List Target) {g : Annotations} (loose : g.Loose)
    : Yields (h.annotations targets g) Annotations.Loose

namespace KeepsLoose

variable {h : TypeHooks}

/-- Hooks that link nothing at a type by itself leave its declaration loose. -/
theorem apply (keeps : h.KeepsLoose) (targets : List Target) {t : TypeNode}
    (loose : t.declaration.Loose)
    : Yields (h.apply targets t) fun t' => t'.declaration.Loose := by
  unfold TypeHooks.apply
  rw [keeps.node, ok_bind]
  refine Yields.bind (keeps.annotations targets loose.annotations) fun g own => ?_
  intro t' ok
  refine (TypeNode.mapExamplesM_loose ?_ ?_ t' ok).1
  · exact fun e ofExample => Yields.bind (keeps.annotations _ ofExample) fun _ own => Yields.ok own
  · exact ⟨own, loose.examples⟩

/-- Properties are as loose as the types that they are given. -/
theorem withTypes {properties : Properties} {types : List TypeNode} (loose : ∀ t ∈ types, t.Loose)
    : (properties.withTypes types).Loose :=
  .of_types fun _ _ member => loose _ (Properties.mem_withTypes member)

/-- Whatever properties are called, their types stay loose: by induction on types. -/
theorem visit (keeps : h.KeepsLoose) (targets : List Target) {t : TypeNode} (loose : t.Loose)
    : Yields (t.visit h targets) TypeNode.Loose := by
  induction t using TypeNode.induct generalizing targets with
  | step t ih =>
      obtain ⟨declaration, properties⟩ := TypeNode.loose_iff.mp loose
      have inner (key : String) (p : Property) (member : (key, p) ∈ t.properties) : p.type.Loose :=
        TypeNode.loose_of_sites (Properties.loose_iff.mp (properties "") _ member)
      have inside := visitTypes_yields fun key p member =>
        ih key p member [.typeDeclaration] (inner key p member)
      rw [TypeNode.visit_eq]
      refine Yields.bind (keeps.apply targets declaration) fun visited own => ?_
      refine Yields.skip fun renamed => Yields.bind inside fun types each => Yields.ok ?_
      exact TypeNode.loose_iff.mpr ⟨own, withTypes each⟩

theorem visitProperties (keeps : h.KeepsLoose) {properties : Properties} (loose : properties.Loose)
    : Yields (properties.visit h) Properties.Loose := by
  have inner (key : String) (p : Property) (member : (key, p) ∈ properties) : p.type.Loose :=
    TypeNode.loose_of_sites (Properties.loose_iff.mp (loose "") _ member)
  have inside := visitTypes_yields fun key p member =>
    keeps.visit [.typeDeclaration] (inner key p member)
  refine Yields.skip fun renamed => Yields.bind inside fun types each => ?_
  exact Yields.ok (withTypes each)

end KeepsLoose

end TypeHooks

-----------------------------------------------------------------------------------------
-- The normal form
-----------------------------------------------------------------------------------------

namespace Pass

/-- A pass that links no annotations, and leaves traits to be walked. -/
structure KeepsLoose (p : Pass) : Prop where
  empties : p.Empties
  type (s : Scope) (targets : List Target) {t : TypeNode} (loose : t.Loose)
    : Yields (p.type s targets t) TypeNode.Loose
  properties (s : Scope) {ps : Properties} (loose : ps.Loose)
    : Yields (p.properties s ps) Properties.Loose
  annotations (s : Scope) (targets : List Target) {g : Annotations} (loose : g.Loose)
    : Yields (p.annotations s targets g) Annotations.Loose
  keys (types : AnnotationTypes) : Keyed.keys (p.annotationTypes types) = Keyed.keys types
  annotationTypes {types : AnnotationTypes} (loose : ∀ entry ∈ types, entry.2.type.Loose)
    : ∀ entry ∈ p.annotationTypes types, entry.2.type.Loose
  bodies {bodies : Bodies} (loose : ∀ entry ∈ bodies, entry.2.Loose)
    : Yields (p.bodies bodies) fun bodies => ∀ entry ∈ bodies, entry.2.Loose
  uriParameters (key : String) (ps : Properties) : p.uriParameters key ps = ps
  trait (s : Scope) (t : Trait) : p.trait s t = .ok none

variable {p : Pass}

/-- A pass that links nothing at types links nothing anywhere. -/
theorem KeepsLoose.relates (keeps : p.KeepsLoose)
    : p.Relates (fun _ => True) (fun _ _ => True) fun _ => Site.StaysLoose where
  joins _ := Site.joins_staysLoose
  empties := keeps.empties
  type s t _ := Alike.of_ok fun t' ok loose =>
    keeps.type s _ (TypeNode.loose_of_sites loose) t' ok _ _
  properties s ps _ := Alike.of_ok fun ps' ok loose =>
    keeps.properties s (Properties.loose_of_sites loose) ps' ok _
  parameters s key ps _ := by
    rw [keeps.uriParameters]
    exact Alike.of_ok fun ps' ok loose =>
      keeps.properties s (Properties.loose_of_sites loose) ps' ok _
  annotations s targets g _ := by
    apply Alike.of_ok
    intro g' ok
    rw [Site.StaysLoose, Site.loose_annotations, Site.loose_annotations]
    exact And.imp_left fun loose => keeps.annotations s targets loose g' ok
  annotationTypes s types _ := by
    apply Alike.of_ok
    intro types' ok
    refine ⟨(keys_onValues ok).trans (keeps.keys types), fun loose => ?_⟩
    rw [Site.loose_flatMap] at loose ⊢
    have before := keeps.annotationTypes fun entry member =>
      TypeNode.loose_of_sites (loose entry member)
    have each : ∀ entry ∈ p.annotationTypes types,
        Yields (do return { entry.2 with type := ← p.type s [.annotationType] entry.2.type })
          fun a : AnnotationType => a.type.Loose :=
      fun entry member => Yields.bind (keeps.type s _ (before entry member)) fun _ own =>
        Yields.ok own
    exact fun entry member => onValues_yields each types' ok entry member _ _
  bodies s site bodies _ := by
    apply Alike.of_ok
    intro bodies' ok loose
    obtain ⟨named, renamed, ok⟩ := bind_eq_ok_iff.mp ok
    rw [Bodies.sites, Site.loose_flatMap] at loose ⊢
    have before := keeps.bodies (fun entry member => TypeNode.loose_of_sites (loose entry member))
      named renamed
    have each := fun entry member =>
      keeps.type s [.typeDeclaration, site] (before entry member)
    exact fun entry member => onValues_yields each bodies' ok entry member _ _
  trait s t _ := by
    rw [keeps.trait]
    apply Alike.ok
    intro done same
    cases same
  traitNode _ _ _ _ _ := by
    rw [Site.StaysLoose, Site.loose_trait, Site.loose_trait]
    exact id
  method _ _ _ := by
    rw [Site.StaysLoose, Site.loose_method, Site.loose_method]
    exact id

/-- Hooks that link nothing, wherever there are types. -/
theorem KeepsLoose.of_hooks {hooks : Scope → TypeHooks} (keeps : ∀ s, (hooks s).KeepsLoose)
    (empties : (ofHooks hooks).Empties)
    : (ofHooks hooks).KeepsLoose where
  empties := empties
  keys _ := rfl
  annotationTypes := id
  bodies loose := Yields.ok loose
  uriParameters _ _ := rfl
  trait _ _ := rfl
  type s targets _ loose := (keeps s).visit targets loose
  properties s _ loose := (keeps s).visitProperties loose
  annotations s targets _ loose := (keeps s).annotations targets loose

theorem normalizeProperties_keepsLoose : normalizeProperties.KeepsLoose :=
  .of_hooks (fun _ => { node := fun _ => rfl, annotations := fun _ => Yields.ok })
    ⟨fun _ => rfl, fun _ _ => rfl, rfl⟩

theorem nameAnnotations_keepsLoose : nameAnnotations.KeepsLoose := by
  refine .of_hooks (fun _ => { node := fun _ => rfl, annotations := fun _ g loose => Yields.ok ?_ })
    ⟨fun _ => rfl, fun _ _ => rfl, rfl⟩
  intro entry member
  obtain ⟨⟨key, a⟩, inside, rfl⟩ := List.mem_map.mp (Keyed.mem_of_mem_ofPairs member)
  exact loose (key, a) inside

theorem completeAnnotations_keepsLoose : completeAnnotations.KeepsLoose := by
  have values : (ofHooks fun _ => { annotations := fun _ a => .ok a.withValues }).KeepsLoose := by
    refine .of_hooks
      (fun _ => { node := fun _ => rfl, annotations := fun _ g loose => Yields.ok ?_ })
      ⟨fun _ => rfl, fun _ _ => rfl, rfl⟩
    intro entry member
    obtain ⟨⟨key, a⟩, inside, rfl⟩ := List.mem_map.mp member
    exact loose (key, a) inside
  exact {
    empties := ⟨fun _ => rfl, fun _ _ => rfl, rfl⟩
    type := values.type
    properties := values.properties
    annotations := values.annotations
    bodies := fun loose => Yields.ok loose
    uriParameters := fun _ _ => rfl
    trait := fun _ _ => rfl
    keys := AnnotationTypes.keys_withTypes
    annotationTypes := by
      intro types loose entry member
      obtain ⟨⟨name, a⟩, inside, rfl⟩ := List.mem_map.mp member
      have before : a.type.Loose := loose (name, a) inside
      show TypeNode.Loose (if a.type.typeName.isEmpty then _ else a).type
      split
      · have parts := TypeNode.loose_iff.mp before
        exact TypeNode.loose_setName parts.1 parts.2 _
      · exact before }

theorem applyMediaTypes_keepsLoose (mediaTypes : Option (List String))
    : (applyMediaTypes mediaTypes).KeepsLoose := by
  have idle : KeepsLoose {} := {
    empties := ⟨fun _ => rfl, fun _ _ => rfl, rfl⟩
    type := fun _ _ _ => Yields.ok
    properties := fun _ _ => Yields.ok
    annotations := fun _ _ _ => Yields.ok
    keys := fun _ => rfl
    annotationTypes := id
    bodies := fun loose => Yields.ok loose
    uriParameters := fun _ _ => rfl
    trait := fun _ _ => rfl }
  cases mediaTypes with
  | none => exact idle
  | some names =>
      exact { idle with
        empties := ⟨fun _ => rfl, fun _ _ => rfl, rfl⟩
        bodies := fun loose => (Bodies.underMediaTypes_alike names loose).result }

end Pass

namespace Document

variable {target : Target} {mediaTypes : Option (List String)} {d n : Document}

/-- Before annotations are linked on purpose, every pass leaves them without declarations. -/
theorem Loose.of_run {p : Pass} (keeps : p.KeepsLoose) (h : p.run target d = .ok n)
    (loose : d.Loose target)
    : n.Loose target := by
  intro path l' reaches
  have related := (keeps.relates.run target fun _ _ _ _ _ => trivial).result n h
  obtain ⟨l, reached, -, stays⟩ := related.backward reaches
  exact stays (loose path l reached)

/-- Bringing a document into normal form links nothing. -/
theorem Loose.of_normalize (h : d.normalize target mediaTypes = .ok n) (loose : d.Loose target)
    : n.Loose target := by
  obtain ⟨d₁, properties, h⟩ := bind_eq_ok_iff.mp h
  obtain ⟨d₂, bodies, h⟩ := bind_eq_ok_iff.mp h
  obtain ⟨d₃, values, names⟩ := bind_eq_ok_iff.mp h
  have first := loose.of_run Pass.normalizeProperties_keepsLoose properties
  have second := first.of_run (Pass.applyMediaTypes_keepsLoose mediaTypes) bodies
  have third := second.of_run Pass.completeAnnotations_keepsLoose values
  exact third.of_run Pass.nameAnnotations_keepsLoose names

end Document

end Raml
