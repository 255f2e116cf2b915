import Raml.Proofs.Declarations.Parsed

/-! Groups of facets, from the declaration of a type to the type when parsing is done.

A type keeps its groups for texts and for files if it sets something in them, and its kind if its
base needs no declaration. So do the types of its properties, whatever other types they inherit
from.
-/

namespace Raml

-----------------------------------------------------------------------------------------
-- Types side by side
-----------------------------------------------------------------------------------------

namespace TypeNode

variable {E F : TypeNode → TypeNode → Prop} {t t' t'' : TypeNode}

/-- Two types of which the first is related to the second, and so are those of their properties, in
order and at every depth. Where there were no properties, there may be some. -/
inductive Aligned (E : TypeNode → TypeNode → Prop) : TypeNode → TypeNode → Prop where
  | intro {t t' : TypeNode} (own : E t t')
      (properties : t.properties ≠ []
        → List.Forall₂ (fun entry entry' => Aligned E entry.2.type entry'.2.type) t.properties
            t'.properties)
      : Aligned E t t'

/-- What holds between a type and itself holds at every depth. -/
theorem Aligned.refl (refl : ∀ t, E t t) (t : TypeNode) : Aligned E t t := by
  induction t using TypeNode.induct with
  | step t ih =>
      exact .intro (refl t) fun _ => List.forall₂_same.mpr fun entry member =>
        ih entry.1 entry.2 member

/-- By induction on types. -/
theorem Aligned.trans (trans : ∀ {t t' t''}, E t t' → E t' t'' → E t t'') (h : Aligned E t t')
    (h' : Aligned E t' t'')
    : Aligned E t t'' := by
  induction t using TypeNode.induct generalizing t' t'' with
  | step t ih =>
      obtain ⟨own, properties⟩ := h
      obtain ⟨own', properties'⟩ := h'
      refine .intro (trans own own') fun some => ?_
      have first := properties some
      have filled : t'.properties ≠ [] := by
        intro none
        rw [none] at first
        exact some (List.forall₂_nil_right_iff.mp first)
      refine forall₂_trans_of_mem first (properties' filled) ?_
      exact fun entry member _ _ inside inside' => ih entry.1 entry.2 member inside inside'

/-- What is known of the first types at every depth may be put to use. -/
theorem Aligned.mono {Q : TypeNode → Prop} (h : Aligned E t t') (holds : t.Throughout Q)
    (weaken : ∀ u u', Q u → E u u' → F u u')
    : Aligned F t t' := by
  induction t using TypeNode.induct generalizing t' with
  | step t ih =>
      obtain ⟨own, properties⟩ := h
      obtain ⟨here, inside⟩ := throughout_iff.mp holds
      refine .intro (weaken t t' here own) fun some => ?_
      refine forall₂_mono_of_mem (properties some) fun entry member entry' aligned => ?_
      exact ih entry.1 entry.2 member aligned (inside entry.1 entry.2 member)

/-- What a type keeps of its groups for texts and for files, and of its kind. -/
structure KeepsGroups (t t' : TypeNode) : Prop where
  baseName : t'.baseName = t.baseName
  kind (builtIn : (Kind.ofName t.baseName).isBuiltIn = true) : t'.kind = t.kind
  string : Fills StringFacets.isEmpty t.string t'.string
  file : Fills FileFacets.isEmpty t.file t'.file

theorem KeepsGroups.refl (t : TypeNode) : t.KeepsGroups t :=
  ⟨rfl, fun _ => rfl, .refl _ _, .refl _ _⟩

/-- What is kept twice is kept. -/
theorem KeepsGroups.trans (h : t.KeepsGroups t') (h' : t'.KeepsGroups t'') : t.KeepsGroups t'' where
  baseName := h'.baseName.trans h.baseName
  kind builtIn := (h'.kind (h.baseName ▸ builtIn)).trans (h.kind builtIn)
  string := h.string.trans h'.string
  file := h.file.trans h'.file

/-- Types keep their groups, and so do those of their properties. -/
abbrev KeepsAll : TypeNode → TypeNode → Prop := Aligned KeepsGroups

theorem KeepsAll.refl (t : TypeNode) : t.KeepsAll t := Aligned.refl KeepsGroups.refl t

/-- The same at every depth, by induction on the first type. -/
theorem KeepsAll.trans (h : t.KeepsAll t') (h' : t'.KeepsAll t'') : t.KeepsAll t'' :=
  Aligned.trans KeepsGroups.trans h h'

-----------------------------------------------------------------------------------------
-- Inheritance
-----------------------------------------------------------------------------------------

/-- Properties are kept if the type of each is. -/
theorem forall₂_keepsAll {f : TypeNode → TypeNode} {ps : Properties}
    (each : ∀ key p, (key, p) ∈ ps → p.type.KeepsAll (f p.type))
    : List.Forall₂ (fun entry entry' => entry.2.type.KeepsAll entry'.2.type) ps (ps.mapTypes f) :=
  List.forall₂_map_right_iff.mpr <| List.forall₂_same.mpr fun entry member =>
    each entry.1 entry.2 member

/-- A base that is built in is not looked up, so nothing takes the place of the kind. -/
theorem keepsAll_fillFrom (find : String → Option TypeNode) (t : TypeNode)
    : t.KeepsAll (t.fillFrom find) := by
  induction t using TypeNode.induct with
  | step t ih =>
      cases resolved : t.resolved with
      | true =>
          rw [fillFrom_of_resolved resolved]
          exact .refl t
      | false =>
          have inside := forall₂_keepsAll ih
          rw [fillFrom_eq resolved]
          cases found : t.base?.bind find with
          | none =>
              rw [filled_none]
              exact .intro { KeepsGroups.refl t with } fun _ => inside
          | some base =>
              obtain ⟨name, asked, -⟩ := Option.bind_eq_some_iff.mp found
              rw [filled_some]
              refine .intro ⟨rfl, fun builtIn => ?_, .ite _ _, .ite _ _⟩ fun some => ?_
              · have lookup := (needsLookup_of_base? asked).1
                simp [needsLookup, builtIn] at lookup
              · have set : t.object.isEmpty = false := by
                  have some : t.object.properties ≠ [] := some
                  simp [ObjectFacets.isEmpty, some]
                simpa [TypeNode.properties, set] using inside

/-- Annotations have nothing to do with groups. -/
theorem keepsAll_linkAnnotations (l : Library) (t : TypeNode)
    : t.KeepsAll (t.linkAnnotations l) := by
  induction t using TypeNode.induct with
  | step t ih =>
      rw [linkAnnotations_eq]
      exact .intro { KeepsGroups.refl t with } fun _ => forall₂_keepsAll ih

end TypeNode

/-- Resolution keeps the groups of declared types, since a type inherits where it sets nothing. -/
theorem Resolver.Run.keepsAll {outer : String → Option TypeNode} {declared types : Types}
    {done : Traversal.Completed} (run : Run outer declared done types)
    : Keyed.Related TypeNode.KeepsAll declared types :=
  run.related .refl fun _ _ t _ => t.keepsAll_fillFrom _

theorem Library.keepsAll_of_resolve {l r : Library} (h : l.resolve = .ok r)
    : Keyed.Related TypeNode.KeepsAll l.types r.types := by
  have linked : Keyed.Related TypeNode.KeepsAll l.types (l.withUses r.uses).linkedTypes :=
    Keyed.related_of_map (TypeNode.keepsAll_linkAnnotations _) l.types
  refine (linked.trans (resolution_of_resolve h).linkedRun.keepsAll).mono fun t t'' kept => ?_
  obtain ⟨t', first, second⟩ := kept
  exact first.trans second

-----------------------------------------------------------------------------------------
-- Passes
-----------------------------------------------------------------------------------------

/-- Hooks that change nothing in types but examples and annotations, and in properties nothing but
their names. -/
structure TypeHooks.KeepsGroups (h : TypeHooks) : Prop where
  node (t : TypeNode) : Yields (h.node t) fun t' => ∃ example? examples,
    t' = t.withExamples example? examples
  properties (ps : Properties) : Yields (h.properties ps) (List.Forall₂ (fun _ _ => True) ps)

namespace TypeHooks.KeepsGroups

variable {h : TypeHooks}

/-- Hooks that keep groups of a type by itself keep them when they are applied. -/
theorem apply (keeps : h.KeepsGroups) (targets : List Target) (t : TypeNode)
    : Yields (h.apply targets t) t.KeepsGroups := by
  refine Yields.bind (keeps.node t) fun u made => Yields.skip fun annotations => ?_
  obtain ⟨_, _, rfl⟩ := made
  refine (TypeNode.mapExamplesM_related (E := fun _ _ => True) fun _ _ _ => trivial).mono ?_
  rintro _ ⟨_, _, rfl, -⟩
  exact { TypeNode.KeepsGroups.refl t with }

/-- By induction on types. -/
theorem visit (keeps : h.KeepsGroups) (targets : List Target) (t : TypeNode)
    : Yields (t.visit h targets) t.KeepsAll := by
  induction t using TypeNode.induct generalizing targets with
  | step t ih =>
      rw [TypeNode.visit_eq]
      refine Yields.bind (keeps.apply targets t) fun visited own => ?_
      refine Yields.bind (keeps.properties t.properties) fun renamed names => ?_
      refine Yields.keep fun types visits => Yields.ok ?_
      have inside : List.Forall₂ (fun entry u => entry.2.type.KeepsAll u) t.properties types := by
        rw [visitTypes_eq_mapM] at visits
        exact forall₂_mono_of_mem (forall₂_of_mapM visits) fun entry member u visited =>
          ih entry.1 entry.2 member _ u visited
      refine .intro { own with } fun _ => ?_
      have kept := Properties.forall₂_withTypes (R := fun _ _ => True) names inside
      exact kept.imp fun _ _ => And.right

end TypeHooks.KeepsGroups

namespace Pass

variable {p : Pass}

/-- A pass that keeps the groups of types wherever it comes by. -/
def KeepsGroups (p : Pass) : Prop := ∀ s targets t, Yields (p.type s targets t) t.KeepsAll

/-- A pass that leaves types alone keeps their groups. -/
theorem keepsGroups_of_idle (idle : ∀ s targets t, p.type s targets t = .ok t) : p.KeepsGroups := by
  intro s targets t
  rw [idle]
  exact Yields.ok (.refl t)

/-- Hooks that change examples and annotations, and rename properties at most. -/
theorem keepsGroups_ofHooks {hooks : Scope → TypeHooks} (keeps : ∀ s, (hooks s).KeepsGroups)
    : (ofHooks hooks).KeepsGroups :=
  fun s targets t => (keeps s).visit targets t

theorem hooks_keepGroups {annotations : List Target → Annotations → Except Error Annotations}
    : TypeHooks.KeepsGroups { annotations } where
  node t := Yields.ok ⟨_, _, t.withExamples_self.symm⟩
  properties _ := Yields.ok (List.forall₂_same.mpr fun _ _ => trivial)

/-- Properties are renamed, and their types stay. -/
theorem normalizeProperties_keepsGroups : normalizeProperties.KeepsGroups :=
  keepsGroups_ofHooks fun _ => {
    node := fun t => Yields.ok ⟨_, _, t.withExamples_self.symm⟩
    properties := fun _ _ normal =>
      (Properties.forall₂_normalize normal).imp fun _ _ _ => trivial }

theorem applyMediaTypes_keepsGroups (mediaTypes : Option (List String))
    : (applyMediaTypes mediaTypes).KeepsGroups :=
  keepsGroups_of_idle fun _ _ _ => by cases mediaTypes <;> rfl

/-- Annotations are changed, and types stay. -/
theorem completeAnnotations_keepsGroups : completeAnnotations.KeepsGroups :=
  keepsGroups_ofHooks fun _ => hooks_keepGroups

theorem nameAnnotations_keepsGroups : nameAnnotations.KeepsGroups :=
  keepsGroups_ofHooks fun _ => hooks_keepGroups

/-- A type inherits where it sets nothing. -/
theorem fillTypes_keepsGroups : fillTypes.KeepsGroups := by
  intro s targets t
  show Yields (do (← t.fill s.library).visit (linkHooks s) targets) _
  have links : (linkHooks s).KeepsGroups := hooks_keepGroups
  rcases t.fill_cases s.library with ⟨ok, -⟩ | ⟨name, -, -, error⟩
  · rw [ok, ok_bind]
    exact (links.visit targets _).mono fun _ visited => (t.keepsAll_fillFrom _).trans visited
  · rw [error]
    exact Yields.error _

/-- Examples are added, and facets stay. -/
theorem fillExamples_keepsGroups (source : Source) : (fillExamples source).KeepsGroups :=
  keepsGroups_ofHooks fun s => {
    node := fun t t' ok => by
      obtain ⟨u, read, ok⟩ := bind_eq_ok_iff.mp ok
      obtain ⟨⟨u', added⟩, derived, ok⟩ := bind_eq_ok_iff.mp ok
      cases ok
      obtain ⟨_, _, rfl⟩ := TypeNode.withExamples_of_materialize read
      obtain ⟨_, _, rfl⟩ := TypeNode.withExamples_of_addDerived derived
      exact ⟨_, _, rfl⟩
    properties := fun _ => Yields.ok (List.forall₂_same.mpr fun _ _ => trivial) }

end Pass

-----------------------------------------------------------------------------------------
-- Documents
-----------------------------------------------------------------------------------------

/-- The libraries that a library leads to stay where they are, and the types that they declare keep
their groups. -/
def Library.KeepsGroups (l l' : Library) : Prop :=
  ∀ path m, l.Reaches path m
    → ∃ m', l'.Reaches path m' ∧ Keyed.Related TypeNode.KeepsAll m.types m'.types

namespace Library.KeepsGroups

variable {l l' l'' : Library}

/-- Libraries that keep groups twice keep them. -/
theorem trans (h : l.KeepsGroups l') (h' : l'.KeepsGroups l'') : l.KeepsGroups l'' := by
  intro path m reaches
  obtain ⟨m', reached, first⟩ := h path m reaches
  obtain ⟨m'', reached, second⟩ := h' path m' reached
  refine ⟨m'', reached, (first.trans second).mono fun t t'' related => ?_⟩
  obtain ⟨t', first, second⟩ := related
  exact first.trans second

/-- What happens to the tables of types in each library happens in the whole tree of them. -/
theorem of_parallel {S : Path → Library → Library → Prop} (parallel : Parallel S)
    (directory : Path) (h : S directory l l')
    (types : ∀ there m m', S there m m' → Keyed.Related TypeNode.KeepsAll m.types m'.types)
    : l.KeepsGroups l' := by
  intro path m reaches
  obtain ⟨there, inside⟩ := exists_reachesAt reaches directory
  obtain ⟨m', reached, related⟩ := parallel.forward inside h
  exact ⟨m', reached.reaches, types there m m' related⟩

/-- A pass that keeps the groups of types keeps those of all libraries. -/
theorem of_run {p : Pass} (keeps : p.KeepsGroups) {target : Target} {d d' : Document}
    (h : p.run target d = .ok d')
    : d.library.KeepsGroups d'.library := by
  refine of_parallel (Pass.parallel_takes p) d.directory (Pass.takes_of_run h) ?_
  rintro there m m' ⟨s, target, rfl, rfl, made⟩
  exact (Pass.makes_of_onLibrary made).types.mono fun t t' made => keeps s _ t t' made

theorem of_resolve (h : l.resolve = .ok l') : l.KeepsGroups l' :=
  of_parallel parallel_resolve ⟨""⟩ h fun _ _ _ => keepsAll_of_resolve

/-- Reading examples keeps groups too. -/
theorem of_materialize {source : Source} {directory : Path}
    (h : l.materialize source directory = .ok l')
    : l.KeepsGroups l' := by
  refine of_parallel (parallel_materializes source) _ ⟨directory, rfl, h⟩ ?_
  rintro _ m m' ⟨_, -, read⟩
  refine (Keyed.related_of_mapM (eq_of_materialize read).1).mono fun t t' read => ?_
  obtain ⟨_, _, rfl⟩ := TypeNode.withExamples_of_materialize read
  exact .intro { TypeNode.KeepsGroups.refl t with } fun _ =>
    List.forall₂_same.mpr fun entry _ => TypeNode.KeepsAll.refl entry.2.type

variable {target : Target} {mediaTypes : Option (List String)} {d n f s d' : Document}

/-- Up to the normal form groups are kept. -/
theorem of_normalize (h : d.normalize target mediaTypes = .ok n)
    : d.library.KeepsGroups n.library := by
  obtain ⟨d₁, properties, h⟩ := bind_eq_ok_iff.mp h
  obtain ⟨d₂, bodies, h⟩ := bind_eq_ok_iff.mp h
  obtain ⟨d₃, values, names⟩ := bind_eq_ok_iff.mp h
  have first := of_run Pass.normalizeProperties_keepsGroups properties
  have second := of_run (Pass.applyMediaTypes_keepsGroups mediaTypes) bodies
  have third := of_run Pass.completeAnnotations_keepsGroups values
  exact (first.trans second).trans (third.trans (of_run Pass.nameAnnotations_keepsGroups names))

/-- They are kept while types are filled in. -/
theorem of_fill (h : n.fill target = .ok f) : n.library.KeepsGroups f.library := by
  obtain ⟨l', resolved, types⟩ := bind_eq_ok_iff.mp h
  exact (of_resolve resolved).trans (of_run Pass.fillTypes_keepsGroups types)

/-- And they are kept by what comes behind that. -/
theorem of_finish {p : Parser} (h : p.finish target s = .ok d')
    : s.library.KeepsGroups d'.library := by
  obtain ⟨d₁, parameters, h⟩ := bind_eq_ok_iff.mp h
  obtain ⟨l', read, filled⟩ := bind_eq_ok_iff.mp h
  have first := of_run (Pass.keepsGroups_of_idle fun _ _ _ => rfl) parameters
  exact (first.trans (of_materialize read)).trans
    (of_run (Pass.fillExamples_keepsGroups p.source) filled)

end Library.KeepsGroups

/-- Once its libraries are loaded, a document keeps the groups of the types that they declare. -/
theorem Parser.Phases.keepsGroups {p : Parser} {target : Target} {mediaTypes : Option (List String)}
    {d n f s d' : Document} (phases : p.Phases target mediaTypes d n f s d')
    : d.library.KeepsGroups d'.library := by
  have substituted : f.library.KeepsGroups s.library :=
    .of_run (Pass.keepsGroups_of_idle fun _ _ _ => rfl) phases.substituted
  exact ((Library.KeepsGroups.of_normalize phases.normal).trans (.of_fill phases.filled)).trans
    (substituted.trans (.of_finish phases.finished))

end Raml
