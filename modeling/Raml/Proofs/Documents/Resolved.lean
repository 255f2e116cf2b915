import Raml.Proofs.Documents.Files
import Raml.Proofs.Documents.Loading
import Raml.Proofs.Documents.Parts
import Raml.Proofs.Documents.Spelled
import Raml.Proofs.Documents.Typed
import Raml.Proofs.Examples.Checked
import Raml.Proofs.Source.Names

/-! Every type of a document that has been parsed is resolved.

Types are written unresolved. Declared types are resolved first, unless there is a point in their
name: these are no bases of others, and wait for the pass that resolves all that is left. No pass
after that takes the mark away or brings in types that do not have it.
-/

namespace Raml

open Resolver

-----------------------------------------------------------------------------------------
-- Marks
-----------------------------------------------------------------------------------------

namespace TypeNode

/-- The type and those of its properties are all resolved, or all of them are not. -/
abbrev Marked (resolved : Bool) : TypeNode → Prop := Throughout fun u => u.resolved = resolved

/-- The mark is the same at every depth, whichever it is. -/
def Uniform (t : TypeNode) : Prop := ∃ resolved, t.Marked resolved

/-- The mark of a type is its own and those of its properties. -/
theorem marked_iff {t : TypeNode} {resolved : Bool}
    : t.Marked resolved
      ↔ t.resolved = resolved ∧ t.properties.Throughout fun u => u.resolved = resolved :=
  throughout_iff

/-- What has just been read is unmarked at every depth. -/
theorem Fresh.marked {t : TypeNode} (fresh : t.Fresh) : t.Marked false := by
  induction t using TypeNode.induct with
  | step t ih =>
      obtain ⟨unresolved, -, properties⟩ := fresh_iff.mp fresh
      exact marked_iff.mpr ⟨unresolved, fun key p member => ih key p member (properties key p member)⟩

/-- The mark reaches every type inside. -/
theorem Marked.throughout {t : TypeNode} {resolved : Bool} (h : t.Marked resolved)
    : t.Throughout (Marked resolved) :=
  throughout_throughout.mpr h

/-- Types inside a marked one are as uniform as it is. -/
theorem Marked.uniform {t : TypeNode} {resolved : Bool} (h : t.Marked resolved)
    : t.Throughout Uniform :=
  fun _ inside => ⟨resolved, h.within inside⟩

/-- Uniformity is inherited by the types inside. -/
theorem Uniform.throughout {t : TypeNode} (h : t.Uniform) : t.Throughout Uniform := by
  obtain ⟨resolved, marked⟩ := h
  exact marked.uniform

/-- Examples do not bear on the mark. -/
theorem Marked.withExamples {t : TypeNode} {resolved : Bool} (h : t.Marked resolved)
    (example? : Option Example) (examples : Examples)
    : (t.withExamples example? examples).Marked resolved :=
  marked_iff.mpr ⟨(marked_iff.mp h).1, (marked_iff.mp h).2⟩

/-- What is left unresolved takes the properties of bases that are resolved, and is resolved then. -/
theorem Uniform.fillFrom {find : String → Option TypeNode} {t : TypeNode} (h : t.Uniform)
    (bases : ∀ name ∈ t.references, ∀ base, find name = some base → base.Marked true)
    : (t.fillFrom find).Marked true := by
  obtain ⟨resolved, marked⟩ := h
  induction t using TypeNode.induct with
  | step t ih =>
      obtain ⟨own, properties⟩ := marked_iff.mp marked
      cases resolved with
      | true => rwa [fillFrom_of_resolved own]
      | false =>
          have inside : Properties.Throughout (fun u => u.resolved = true)
              (t.properties.mapTypes (TypeNode.fillFrom find)) := by
            intro key q member
            obtain ⟨p, declared, same⟩ := Properties.mem_mapTypes member
            rw [same]
            refine ih key p declared (fun name mentioned => bases name ?_) (properties key p declared)
            exact (mem_references own).mpr (Or.inr ⟨key, p, declared, mentioned⟩)
          rw [fillFrom_eq own]
          cases found : t.base?.bind find with
          | none => exact marked_iff.mpr ⟨rfl, inside⟩
          | some base =>
              obtain ⟨name, asked, found⟩ := Option.bind_eq_some_iff.mp found
              have lent := bases name (mem_references_of_base? asked) base found
              rw [filled_some]
              cases empty : t.object.isEmpty with
              | true => exact marked_iff.mpr ⟨rfl, (marked_iff.mp lent).2⟩
              | false => exact marked_iff.mpr ⟨rfl, inside⟩

/-- Links do not bear on the mark. -/
theorem Marked.linkAnnotations {t : TypeNode} {resolved : Bool} (h : t.Marked resolved) (l : Library)
    : (t.linkAnnotations l).Marked resolved := by
  induction t using TypeNode.induct with
  | step t ih =>
      obtain ⟨own, properties⟩ := marked_iff.mp h
      rw [linkAnnotations_eq]
      refine marked_iff.mpr ⟨own, fun key q member => ?_⟩
      obtain ⟨p, declared, same⟩ := Properties.mem_mapTypes member
      rw [same]
      exact ih key p declared (properties key p declared)

end TypeNode

-----------------------------------------------------------------------------------------
-- Resolution
-----------------------------------------------------------------------------------------

/-- Completed types are resolved, and all others are as they were. -/
theorem Resolver.Run.marked {outer : String → Option TypeNode} {declared types : Types}
    {done : Traversal.Completed} (run : Run outer declared done types)
    (start : ∀ entry ∈ declared, entry.2.Marked false)
    (others : ∀ name base, isQualified name = true → outer name = some base → base.Marked true)
    : (∀ entry ∈ types, entry.2.Uniform)
      ∧ ∀ name ∈ done.keys, ∀ t, Keyed.get? types name = some t → t.Marked true := by
  induction run with
  | start => exact ⟨fun entry member => ⟨false, start entry member⟩, nofun⟩
  | @complete done types chain name t _ found _ _ _ settled ih =>
      obtain ⟨uniform, completed⟩ := ih
      have own : t.Marked false := start _ (Keyed.mem_of_get? (own?_eq_some.mp found).2)
      have filled : (t.fillFrom (outside (chain ++ [name]) (find? outer types))).Marked true := by
        refine TypeNode.Uniform.fillFrom ⟨false, own⟩ fun other mentioned base answer => ?_
        obtain ⟨free, found⟩ := outside_eq_some_iff.mp answer
        rcases find?_eq_some found with ⟨qualified, found⟩ | ⟨unqualified, found⟩
        · exact others other base qualified found
        · exact completed other ((settled other mentioned).completed unqualified free) base found
      constructor
      · intro entry member
        rcases Keyed.mem_insert member with rfl | earlier
        · exact ⟨true, filled⟩
        · exact uniform entry earlier
      · intro other member u entry
        rw [Keyed.get?_insert] at entry
        split at entry
        · cases entry
          exact filled
        · rename_i different
          rw [keys_concat] at member
          rcases List.mem_append.mp member with before | last
          · exact completed other before u entry
          · exact absurd (List.mem_singleton.mp last).symm different

namespace Library

variable {l r m : Library}

/-- Whatever declared type a name leads to is resolved. -/
def BasesResolved (l : Library) : Prop := ∀ name t, l.getType? name = some t → t.Marked true

/-- No declared type has been resolved. -/
def Unmarked (l : Library) : Prop := ∀ entry ∈ l.types, entry.2.Marked false

/-- Behind the last point of a name there is none. -/
theorem isQualified_getLastD_parts (name : String)
    : isQualified ((TypeName.parts name).getLastD "") = false := by
  cases found : (TypeName.parts name).getLast? with
  | none => simp [List.getLastD_eq_getLast?, found, isQualified]
  | some part =>
      obtain ⟨chars, member, rfl⟩ := List.mem_map.mp (List.mem_of_getLast? found)
      have free := not_mem_of_mem_splitOn member
      simpa [List.getLastD_eq_getLast?, found, isQualified] using free

/-- The name at the end of a qualified one has no point. -/
theorem isQualified_of_place? {name : String} {q : Place} (h : l.place? name = some q)
    : isQualified q.name = false := by
  rw [← (place?_eq_some_iff.mp h).2.1]
  exact isQualified_getLastD_parts name

/-- What has been said of a library that is resolved holds of what comes of it: its declared types
are resolved, but for those that are no bases of others. -/
structure Settles (r : Library) : Prop where
  uniform : ∀ entry ∈ r.types, entry.2.Uniform
  bases : r.BasesResolved

/-- By induction from the libraries that are used to those that use them. -/
theorem settles_within (fresh : ∀ m, Within m l → m.Unmarked)
    : ∀ m, Within m l → ∀ r, m.resolve = .ok r → r.Settles := by
  induction l using induct with
  | step l ih =>
      intro m inside r ok
      cases inside with
      | used member inside =>
          exact ih _ _ member (fun m inside => fresh m (.used member inside)) m inside r ok
      | self =>
          have resolution := resolution_of_resolve ok
          have elsewhere (name : String) (base : TypeNode) (qualified : isQualified name = true)
              (found : r.getType? name = some base) : base.Marked true := by
            have related := place?_of_uses resolution.uses qualified
            rw [found] at related
            generalize place : l.place? name = place? at related
            cases related with
            | @some q _ holds =>
                obtain ⟨r', ok', entry⟩ := holds
                obtain ⟨key, used, member, inside⟩ := within_used_of_place? qualified place
                have settles := ih key used member (fun m inside => fresh m (.used member inside))
                  q.library inside r' ok'
                apply settles.bases q.name
                rw [getType?_of_unqualified _ (isQualified_of_place? place), entry]
          have linked : ∀ entry ∈ (l.withUses r.uses).linkedTypes, entry.2.Marked false := by
            intro entry member
            obtain ⟨declared, inside, rfl⟩ := List.mem_map.mp member
            exact (fresh l (.self l) declared inside).linkAnnotations _
          obtain ⟨uniform, completed⟩ := resolution.linkedRun.marked linked
            fun name base qualified found => elsewhere name base qualified
              ((getType?_of_qualified (l := r) (m := l.withUses r.uses) rfl qualified).trans found)
          refine ⟨uniform, fun name t found => ?_⟩
          cases qualified : isQualified name with
          | true => exact elsewhere name t qualified found
          | false =>
              rw [getType?_of_unqualified _ qualified] at found
              refine completed name (mem_keys_order ?_) t found
              rw [own?_of_unqualified qualified, Keyed.get?_isSome_iff, keys_linkedTypes]
              exact resolution.keys_eq ▸ Keyed.get?_isSome_iff.mp (by simp [found])

end Library

-----------------------------------------------------------------------------------------
-- Hooks
-----------------------------------------------------------------------------------------

namespace TypeHooks

variable {h : TypeHooks} {b : Bool}

/-- Hooks that leave the marks of types as they are. -/
def KeepsMarks (h : TypeHooks) : Prop := ∀ t, Yields (h.node t) fun t' => t'.resolved = t.resolved

/-- Properties do not bear on the mark of the node. -/
theorem KeepsMarks.apply (keeps : h.KeepsMarks) (targets : List Target) (t : TypeNode)
    : Yields (h.apply targets t) fun t' => t'.resolved = t.resolved := by
  refine Yields.bind (keeps t) fun t' same => Yields.skip fun annotations => ?_
  intro u ok
  obtain ⟨example?, examples, rfl, -⟩ :=
    (TypeNode.mapExamplesM_alike (E := fun _ => True) fun _ _ =>
      Alike.of_ok fun _ _ => trivial).result u ok
  exact same

/-- By induction on types. -/
theorem KeepsMarks.visit (keeps : h.KeepsMarks) (targets : List Target) {t : TypeNode}
    (marked : t.Marked b)
    : Yields (t.visit h targets) (TypeNode.Marked b) := by
  induction t using TypeNode.induct generalizing targets with
  | step t ih =>
      obtain ⟨own, properties⟩ := TypeNode.marked_iff.mp marked
      have inside := visitTypes_yields fun key p member =>
        ih key p member [.typeDeclaration] (properties key p member)
      rw [TypeNode.visit_eq]
      refine Yields.bind (keeps.apply targets t) fun visited same => Yields.skip fun renamed => ?_
      refine Yields.bind inside fun types each => Yields.ok ?_
      exact TypeNode.marked_iff.mpr ⟨same.trans own, Properties.Throughout.withTypes each⟩

/-- A visit keeps the marks of all types in properties, by induction on these. -/
theorem KeepsMarks.visitProperties (keeps : h.KeepsMarks) {ps : Properties}
    (marked : ps.Throughout fun u => u.resolved = b)
    : Yields (ps.visit h) (Properties.Throughout fun u => u.resolved = b) := by
  have inside := visitTypes_yields fun key p member =>
    keeps.visit [.typeDeclaration] (marked key p member)
  refine Yields.skip fun renamed => Yields.bind inside fun types each => Yields.ok ?_
  exact Properties.Throughout.withTypes each

end TypeHooks

namespace Pass

variable {b : Bool}

/-- A pass that leaves marks as they are, whatever is around. -/
abbrev KeepsMarks (b : Bool) : Pass → Prop :=
  Turns (fun _ => True) (TypeNode.Marked b) (TypeNode.Marked b)

theorem keepsMarks_idle : KeepsMarks b {} where
  empties := ⟨fun _ => rfl, fun _ _ => rfl, rfl⟩
  type _ _ _ _ marked := Yields.ok marked
  properties _ _ _ marked := Yields.ok marked
  keys _ := rfl
  annotationTypes := id
  bodies h := Yields.ok h
  uriParameters _ _ := id
  trait _ _ _ _ := Yields.ok nofun

/-- A walk that adds no types keeps marks if its hooks do. -/
theorem keepsMarks_ofHooks {hooks : Scope → TypeHooks} (empties : (ofHooks hooks).Empties)
    (keeps : ∀ s, (hooks s).KeepsMarks)
    : KeepsMarks b (ofHooks hooks) where
  empties := empties
  keys _ := rfl
  annotationTypes := id
  bodies h := Yields.ok h
  uriParameters _ _ := id
  trait _ _ _ _ := Yields.ok nofun
  type s targets _ _ marked :=
    ((keeps s).visit targets (TypeNode.throughout_throughout.mp marked)).mono fun _ =>
      TypeNode.throughout_throughout.mpr
  properties s _ _ marked :=
    ((keeps s).visitProperties (Properties.throughout_throughout.mp marked)).mono fun _ =>
      Properties.throughout_throughout.mpr

theorem normalizeProperties_keepsMarks : KeepsMarks b normalizeProperties :=
  keepsMarks_ofHooks ⟨fun _ => rfl, fun _ _ => rfl, rfl⟩ fun _ _ => Yields.ok rfl

theorem nameAnnotations_keepsMarks : KeepsMarks b nameAnnotations :=
  keepsMarks_ofHooks ⟨fun _ => rfl, fun _ _ => rfl, rfl⟩ fun _ _ => Yields.ok rfl

theorem completeAnnotations_keepsMarks : KeepsMarks b completeAnnotations := by
  have values : KeepsMarks b (ofHooks fun _ => { annotations := fun _ a => .ok a.withValues }) :=
    keepsMarks_ofHooks ⟨fun _ => rfl, fun _ _ => rfl, rfl⟩ fun _ _ => Yields.ok rfl
  exact {
    empties := ⟨fun _ => rfl, fun _ _ => rfl, rfl⟩
    type := values.type
    properties := values.properties
    bodies := fun h => Yields.ok h
    uriParameters := fun _ _ => id
    trait := fun _ _ _ _ => Yields.ok nofun
    keys := AnnotationTypes.keys_withTypes
    annotationTypes := by
      intro types marked entry member
      obtain ⟨⟨name, a⟩, inside, rfl⟩ := List.mem_map.mp member
      have before : a.type.Marked b := TypeNode.throughout_throughout.mp (marked (name, a) inside)
      suffices named : (if a.type.typeName.isEmpty then { a with type := a.type.setName "string" }
        else a).type.Marked b from named.throughout
      split
      · obtain ⟨own, properties⟩ := TypeNode.marked_iff.mp before
        exact TypeNode.marked_iff.mpr ⟨own, properties⟩
      · exact before }

theorem applyMediaTypes_keepsMarks (mediaTypes : Option (List String))
    : KeepsMarks b (applyMediaTypes mediaTypes) := by
  cases mediaTypes with
  | none => exact keepsMarks_idle
  | some names =>
      exact {
        empties := ⟨fun _ => rfl, fun _ _ => rfl, rfl⟩
        type := keepsMarks_idle.type
        properties := keepsMarks_idle.properties
        keys := fun _ => rfl
        annotationTypes := id
        uriParameters := fun _ _ => id
        trait := fun _ _ _ _ => Yields.ok nofun
        bodies := fun marked => (Bodies.underMediaTypes_alike names marked).result }

/-- Types that a library is filled from are resolved, so all come to be. -/
theorem fillTypes_turns
    : fillTypes.Turns Library.BasesResolved TypeNode.Uniform (TypeNode.Marked true) := by
  have whole {t : TypeNode} (uniform : t.Throughout TypeNode.Uniform) : t.Uniform :=
    (TypeNode.throughout_iff.mp uniform).1
  have links {s : Scope} : (linkHooks s).KeepsMarks := fun _ => Yields.ok rfl
  have fill (s : Scope) (targets : List Target) {t : TypeNode} (around : s.library.BasesResolved)
      (uniform : t.Uniform)
      : Yields (do (← t.fill s.library).visit (linkHooks s) targets) (TypeNode.Marked true) := by
    rcases t.fill_cases s.library with ⟨ok, -⟩ | ⟨name, -, -, error⟩
    · rw [ok, ok_bind]
      have filled := uniform.fillFrom fun name _ base found => around name base found
      exact links.visit targets filled
    · rw [error]
      exact Yields.error _
  exact {
    empties := ⟨fun _ => rfl, fun _ _ => rfl, rfl⟩
    keys := fun _ => rfl
    annotationTypes := id
    bodies := fun h => Yields.ok h
    uriParameters := fun _ _ => id
    trait := fun _ _ _ _ => Yields.ok nofun
    type := fun s targets t around uniform =>
      (fill s targets around (whole uniform)).mono fun _ => TypeNode.throughout_throughout.mpr
    properties := fun s ps around uniform => by
      have each : ∀ entry ∈ ps, Yields (do
          let type ← entry.2.type.fill s.library
          return (entry.1, { entry.2 with
            type := ← type.visit (linkHooks s) [.typeDeclaration] }))
            fun entry : String × Property => entry.2.type.Marked true := by
        intro entry member
        have type := fill s [.typeDeclaration] around (whole (uniform entry.1 entry.2 member))
        rw [← bind_assoc]
        exact Yields.bind type fun _ marked => Yields.ok marked
      exact (Yields.mapM each).mono fun ps' all key p member =>
        TypeNode.throughout_throughout.mpr (all (key, p) member) }

/-- What is declared for uses satisfies what the uses did. -/
theorem fillTraits_turns {Q : TypeNode → Prop}
    : fillTraits.Turns (fun l => ∀ name t, l.getTrait? name = some t
        → ∀ lead, Site.Types Q (t.sites lead)) Q Q where
  empties := ⟨fun _ => rfl, fun _ _ => rfl, rfl⟩
  keys _ := rfl
  annotationTypes := id
  bodies h := Yields.ok h
  uriParameters _ _ := id
  type _ _ _ _ h := Yields.ok h
  properties _ _ _ h := Yields.ok h
  trait s t around _ := by
    show Yields (t.fill s.library) _
    unfold Trait.fill
    split
    · exact Yields.ok nofun
    · cases found : s.library.getTrait? t.reference with
      | none => exact Yields.error _
      | some declared =>
          apply Yields.ok
          intro done same
          cases same
          have inside := around _ _ found s.lead
          rw [Trait.sites_eq, Method.sites_eq] at inside ⊢
          simp only [List.cons_append, Site.types_trait, Site.types_annotations, Site.types_append]
            at inside ⊢
          obtain ⟨⟨⟨parameters, -⟩, bodies⟩, responses⟩ := inside
          exact ⟨⟨⟨parameters, Site.types_nil⟩, bodies⟩, responses⟩

/-- Parameters that are added have nothing to inherit. -/
theorem fillUriParameters_turns : KeepsMarks true fillUriParameters := by
  exact {
    empties := ⟨fun _ => rfl, fun _ _ => rfl, rfl⟩
    type := keepsMarks_idle.type
    properties := keepsMarks_idle.properties
    keys := fun _ => rfl
    annotationTypes := id
    bodies := fun h => Yields.ok h
    trait := fun _ _ _ _ => Yields.ok nofun
    uriParameters := fun key ps marked => by
      refine Keyed.foldl_missing_induct (P := Properties.Throughout (TypeNode.Marked true))
        Property.undeclared _ marked ?_
      intro ps name _ marked
      refine marked.append fun key p member => ?_
      cases List.mem_singleton.mp member
      have marked : (Property.undeclared name).type.Marked true :=
        TypeNode.marked_iff.mpr ⟨rfl, Properties.throughout_nil⟩
      exact marked.throughout }

end Pass

-----------------------------------------------------------------------------------------
-- Examples
-----------------------------------------------------------------------------------------

variable {b : Bool}

theorem TypeNode.withExamples_self (t : TypeNode)
    : t.withExamples t.declaration.example? t.declaration.examples = t := by
  obtain ⟨⟨_, _, _, _, _, _, _, _, _, _⟩, _, _, _, _, _, _, _, _, _⟩ := t
  rfl

/-- Examples are changed one by one. -/
theorem TypeNode.mapExamplesM_related {f : Example → Except Error Example}
    {E : Example → Example → Prop} {t : TypeNode} (each : ∀ e, Yields (f e) (E e))
    : Yields (t.mapExamplesM f) fun t' => ∃ example? examples,
        t' = t.withExamples example? examples
          ∧ Option.Rel E t.declaration.example? example?
          ∧ Keyed.Related E t.declaration.examples examples := by
  intro t' h
  obtain ⟨example?, single, h⟩ := bind_eq_ok_iff.mp h
  obtain ⟨examples, named, h⟩ := bind_eq_ok_iff.mp h
  cases h
  refine ⟨example?, examples, rfl, ?_, (Keyed.related_of_mapM named).mono fun e e' => each e e'⟩
  cases own : t.declaration.example? with
  | none =>
      rw [own] at single
      cases single
      exact .none
  | some e =>
      rw [own, Option.mapM_some] at single
      obtain ⟨e', changed, single⟩ := bind_eq_ok_iff.mp single
      cases single
      exact .some (each e e' changed)

/-- Reading examples from files changes nothing but examples. -/
theorem TypeNode.withExamples_of_materialize {load : Include} {t t' : TypeNode}
    (h : t.materialize load = .ok t')
    : ∃ example? examples, t' = t.withExamples example? examples := by
  obtain ⟨example?, examples, same, -⟩ :=
    mapExamplesM_related (E := fun _ _ => True) (fun _ _ _ => trivial) t' h
  exact ⟨example?, examples, same⟩

/-- Deriving examples changes nothing but examples. -/
theorem TypeNode.withExamples_of_addDerived {load : Include} {declared : String → Option TypeNode}
    {names : List String} {t t' : TypeNode} {added : Bool}
    (h : t.addDerived load declared names = .ok (t', added))
    : ∃ example? examples, t' = t.withExamples example? examples := by
  unfold addDerived at h
  split at h
  · cases h
    exact ⟨_, _, t.withExamples_self.symm⟩
  · obtain ⟨v?, -, h⟩ := bind_eq_ok_iff.mp h
    cases v? with
    | none =>
        cases h
        exact ⟨_, _, t.withExamples_self.symm⟩
    | some v =>
        cases h
        exact ⟨_, _, rfl⟩

/-- The hook that reads examples and derives them keeps marks. -/
theorem Pass.keepsMarks_exampleOf (source : Source) (s : Scope)
    : TypeHooks.KeepsMarks { node := exampleOf source s } := by
  intro t t' ok
  obtain ⟨u, read, ok⟩ := bind_eq_ok_iff.mp ok
  obtain ⟨⟨u', added⟩, derived, ok⟩ := bind_eq_ok_iff.mp ok
  cases ok
  obtain ⟨_, _, rfl⟩ := TypeNode.withExamples_of_addDerived derived
  obtain ⟨_, _, rfl⟩ := TypeNode.withExamples_of_materialize read
  rfl

/-- Filling in examples keeps marks. -/
theorem Pass.fillExamples_keepsMarks (source : Source) : KeepsMarks b (fillExamples source) :=
  keepsMarks_ofHooks ⟨fun _ => rfl, fun _ _ => rfl, rfl⟩ (keepsMarks_exampleOf source)

-----------------------------------------------------------------------------------------
-- Documents
-----------------------------------------------------------------------------------------

/-- The types of a library by itself are those of its declarations. -/
theorem Library.types_ownSites {Q : TypeNode → Prop} {lead : String} {target : Target} {l : Library}
    : Site.Types Q (l.ownSites lead target)
      ↔ (∀ entry ∈ l.types, entry.2.Throughout Q)
        ∧ (∀ entry ∈ l.traits, Site.Types Q (entry.2.sites lead))
        ∧ ∀ entry ∈ l.annotationTypes, entry.2.type.Throughout Q := by
  simp only [ownSites, Site.types_append, Site.types_flatMap, Site.types_annotations,
    TypeNode.types_sites, Site.types_nil, and_true, and_assoc]

/-- To ask all types on a walk is to ask all its stops that are types. -/
theorem Site.types_iff_all {Q : TypeNode → Prop} {sites : List Site}
    : Types Q sites ↔ All (fun site => ∀ t, site = .typeNode t → Q t) sites := by
  constructor
  · intro types site member t same
    exact types t (same ▸ member)
  · intro all t member
    exact all _ member t rfl

namespace Decode

open Yaml (Node)

/-- Declarations of annotations are unmarked when they have been read. -/
theorem annotationType_fresh (node : Node) (path : String)
    : Yields (annotationType node path) fun a => a.type.Fresh := by
  unfold annotationType
  split
  · refine Yields.skip fun f => Yields.skip fun targets => ?_
    have type := typeFields_fresh f fun inner path => properties_fresh inner.1 path
    exact Yields.bind type fun type fresh => Yields.ok fresh
  · exact Yields.bind (typeNode_fresh node path) fun type fresh => Yields.ok fresh

/-- Nothing that is decoded is marked. -/
theorem spells_unmarked : Spells fun site => ∀ t, site = .typeNode t → t.Marked false where
  typeNode node path := (typeNode_fresh node path).mono fun t fresh lead targets =>
    Site.types_iff_all.mp (TypeNode.types_sites.mpr
      (TypeNode.throughout_throughout.mpr fresh.marked))
  annotationType node path := (annotationType_fresh node path).mono fun a fresh lead targets =>
    Site.types_iff_all.mp (TypeNode.types_sites.mpr
      (TypeNode.throughout_throughout.mpr fresh.marked))
  properties node path := (properties_fresh node path).mono fun ps fresh lead =>
    Site.types_iff_all.mp (Properties.types_sites.mpr fun key p member =>
      TypeNode.throughout_throughout.mpr (fresh.2 key p member).marked)
  annotations _ := fun _ _ _ _ _ => by simp
  unannotated _ _ := by simp
  trait _ _ := by simp
  method _ := by simp

end Decode

namespace Document

variable {target : Target} {mediaTypes : Option (List String)} {p : Parser}
variable {d₀ d n f s d' : Document}

/-- Before resolution no type is marked. -/
theorem Written.unmarked (written : d₀.Written) (loads : p.Loads d₀ d)
    : d.Types (TypeNode.Marked false) target :=
  fun _ _ reaches => Site.types_iff_all.mpr (written.sites Decode.spells_unmarked loads reaches)

/-- Normal forms are unmarked. -/
theorem types_of_normalize (h : d.normalize target mediaTypes = .ok n)
    (types : d.Types (TypeNode.Marked false) target)
    : n.Types (TypeNode.Marked false) target := by
  obtain ⟨d₁, properties, h⟩ := bind_eq_ok_iff.mp h
  obtain ⟨d₂, bodies, h⟩ := bind_eq_ok_iff.mp h
  obtain ⟨d₃, values, names⟩ := bind_eq_ok_iff.mp h
  have around {d : Document} : ∀ path l, d.library.Reaches path l → True := fun _ _ _ => trivial
  have first := Pass.normalizeProperties_keepsMarks.run properties around types
  have second := (Pass.applyMediaTypes_keepsMarks mediaTypes).run bodies around first
  have third := Pass.completeAnnotations_keepsMarks.run values around second
  exact Pass.nameAnnotations_keepsMarks.run names around third

/-- Then libraries are resolved, and types that are not resolved with them are left as they are. -/
theorem types_of_resolve {l' : Library} (h : n.library.resolve = .ok l')
    (types : n.Types (TypeNode.Marked false) target)
    : Document.Types TypeNode.Uniform target { n with library := l' }
      ∧ ∀ path m, l'.Reaches path m → m.BasesResolved := by
  have own {path : List String} {m : Library} (reaches : n.library.Reaches path m) :=
    Library.types_ownSites.mp (Site.types_append.mp (types path m reaches)).1
  have fresh : ∀ m, Library.Within m n.library → m.Unmarked := by
    intro m inside
    obtain ⟨path, reaches⟩ := inside.exists_reaches
    exact fun entry member => TypeNode.throughout_throughout.mp ((own reaches).1 entry member)
  have settles {path : List String} {m' : Library} (reaches : l'.Reaches path m')
      : ∃ m, n.library.Reaches path m ∧ m.resolve = .ok m' ∧ m'.Settles := by
    obtain ⟨m, reached, resolved⟩ := (Library.corresponds_of_resolve h).backward reaches
    exact ⟨m, reached, resolved, Library.settles_within fresh m reached.within m' resolved⟩
  constructor
  · intro path m' reaches
    obtain ⟨m, reached, resolved, settled⟩ := settles reaches
    obtain ⟨-, traits, annotationTypes⟩ := own reached
    have others := (Site.types_append.mp (types path m reached)).2
    have uniform (t : TypeNode) (marked : t.Marked false) : t.Uniform := ⟨false, marked⟩
    refine Site.types_append.mpr ⟨Library.types_ownSites.mpr ⟨?_, ?_, ?_⟩, others.mono uniform⟩
    · exact fun entry member => (settled.uniform entry member).throughout
    · rw [Library.traits_of_resolve resolved]
      exact fun entry member => (traits entry member).mono uniform
    · rw [Library.eq_of_resolve resolved]
      intro _ member
      obtain ⟨entry, inside, rfl⟩ := List.mem_map.mp member
      have marked : entry.2.type.Marked false :=
        TypeNode.throughout_throughout.mp (annotationTypes entry inside)
      have same (name : String) :=
        Library.getType?_congr (l := m') (m := (m.withUses m'.uses).withTypes m'.types) rfl rfl name
      exact (TypeNode.Uniform.fillFrom ⟨false, marked⟩ fun name _ base found =>
        settled.bases name base ((same name).trans found)).uniform
  · intro path m' reaches
    obtain ⟨m, -, -, settled⟩ := settles reaches
    exact settled.bases

/-- Everything is marked once types have inherited. -/
theorem types_of_fill (h : n.fill target = .ok f) (types : n.Types (TypeNode.Marked false) target)
    : f.Types (TypeNode.Marked true) target := by
  obtain ⟨l', resolved, h⟩ := bind_eq_ok_iff.mp h
  obtain ⟨uniform, bases⟩ := types_of_resolve resolved types
  exact Pass.fillTypes_turns.run h bases uniform

/-- What holds of the types in a document holds of those of the traits that names denote in it. -/
theorem Types.trait {Q : TypeNode → Prop} (types : d.Types Q target) {path : List String}
    {l : Library} (reaches : d.library.Reaches path l) {name : String} {t : Trait}
    (found : l.getTrait? name = some t) (lead : String)
    : Site.Types Q (t.sites lead) := by
  obtain ⟨more, m, key, further, declared⟩ := Library.reaches_of_getTrait? found
  have own := (Site.types_append.mp (types _ m (reaches.trans further))).1
  have inside := (Library.types_ownSites.mp own).2.1 _ declared
  rw [Trait.sites_withLead, Site.types_withLead] at inside ⊢
  exact inside

/-- Traits that are filled in bring in marked types only. -/
theorem types_of_fillTraits (h : Pass.fillTraits.run target f = .ok s)
    (types : f.Types (TypeNode.Marked true) target)
    : s.Types (TypeNode.Marked true) target :=
  Pass.fillTraits_turns.run h (fun _ _ reaches _ _ found => types.trait reaches found) types

/-- Reading the examples of declared types from their files leaves the marks. -/
theorem types_of_materialize {source : Source} {l' : Library}
    (h : d.library.materialize source d.directory = .ok l')
    (types : d.Types (TypeNode.Marked true) target)
    : Document.Types (TypeNode.Marked true) target { d with library := l' } := by
  intro path m' reaches
  obtain ⟨m, reached, _, read⟩ := (Library.corresponds_of_materialize h).backward reaches
  obtain ⟨own, others⟩ := Site.types_append.mp (types path m reached)
  obtain ⟨declared, traits, annotationTypes⟩ := Library.types_ownSites.mp own
  obtain ⟨ofTypes, -, same⟩ := Library.eq_of_materialize read
  refine Site.types_append.mpr ⟨Library.types_ownSites.mpr ⟨?_, ?_, ?_⟩, others⟩
  · intro entry member
    obtain ⟨t, before, made⟩ := (Keyed.related_of_mapM ofTypes).backward member
    obtain ⟨example?, examples, same⟩ := TypeNode.withExamples_of_materialize made
    rw [same]
    have marked : t.Marked true := TypeNode.throughout_throughout.mp (declared _ before)
    exact (marked.withExamples example? examples).throughout
  · rw [same]
    exact traits
  · rw [same]
    exact annotationTypes

/-- What comes after that keeps the marks. -/
theorem types_of_finish (h : p.finish target s = .ok d')
    (types : s.Types (TypeNode.Marked true) target)
    : d'.Types (TypeNode.Marked true) target := by
  obtain ⟨d₁, parameters, h⟩ := bind_eq_ok_iff.mp h
  obtain ⟨l', read, h⟩ := bind_eq_ok_iff.mp h
  have around {d : Document} : ∀ path l, d.library.Reaches path l → True := fun _ _ _ => trivial
  have first := Pass.fillUriParameters_turns.run parameters around types
  exact (Pass.fillExamples_keepsMarks p.source).run h around (types_of_materialize read first)

end Document

/-- Whatever is parsed, all of its types are resolved. -/
theorem Parser.resolved_of_resolve {p : Parser} {target : Target}
    {mediaTypes : Option (List String)} {d₀ d : Document} (written : d₀.Written)
    (h : p.resolve target mediaTypes d₀ = .ok d) {t : TypeNode} (has : d.Has t)
    : t.resolved = true := by
  obtain ⟨loaded, loads⟩ := exists_loads h
  obtain ⟨n, f, s, phases, -⟩ := phases_of_resolve loads h
  have normal := Document.types_of_normalize phases.normal
    (written.unmarked loads)
  have filled := Document.types_of_fill phases.filled normal
  have substituted := Document.types_of_fillTraits phases.substituted filled
  have types := Document.types_iff.mp (Document.types_of_finish phases.finished substituted)
  exact (TypeNode.marked_iff.mp (types t (has.mem_sites target))).1

end Raml
