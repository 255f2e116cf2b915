import Raml.Proofs.Documents.Hooks
import Raml.Proofs.Documents.Rules
import Raml.Proofs.Resolution.Libraries

/-! How passes go from rules to rules: what a pass makes of each node, where the rules before it hold,
obeys the rules after it, and then so does the whole document.
-/

namespace Raml

open Rules

namespace Pass

/-- What obeys `R` comes to obey `R'`, wherever it stands in a library that obeys `R`. -/
structure Leads (R R' : Rules) (p : Pass) : Prop where
  type (scope : Scope) (around : R.All scope.library.allLeaves) (targets : List Target)
    {t : TypeNode} (h : R.All t.leaves)
    : Yields (p.type scope targets t) fun t => R'.All t.leaves
  properties (scope : Scope) (around : R.All scope.library.allLeaves) {ps : Properties}
    (h : R.OfProperties ps) : Yields (p.properties scope ps) R'.OfProperties
  annotations (scope : Scope) (targets : List Target) {annotations : Annotations}
    (h : R.All (Annotations.leaves annotations))
    : Yields (p.annotations scope targets annotations) fun a => R'.All (Annotations.leaves a)
  annotationTypes {types : AnnotationTypes} (h : R.All (AnnotationTypes.leaves types))
    : R.All (AnnotationTypes.leaves (p.annotationTypes types))
  trait (scope : Scope) (around : R.All scope.library.allLeaves) {t : Trait} (h : R.All t.leaves)
    : Yields (p.trait scope t) fun done? => ∀ done ∈ done?, R'.All done.leaves
  uriParameters (key : String) {ps : Properties} (h : R.OfProperties ps)
    : R.OfProperties (p.uriParameters key ps)
  bodies {bodies : Bodies} (h : R.All (Bodies.leaves bodies))
    : Yields (p.bodies bodies) fun bodies => R.All (Bodies.leaves bodies)

variable {R R' : Rules} {p : Pass}

/-- A pass that does nothing. Others do something at some of the places only. -/
theorem Leads.idle : Leads R R {} where
  type _ _ _ _ h := Yields.ok h
  properties _ _ _ h := Yields.ok h
  annotations _ _ _ h := Yields.ok h
  annotationTypes h := h
  trait _ _ _ _ := Yields.ok nofun
  uriParameters _ _ h := h
  bodies h := Yields.ok h

-----------------------------------------------------------------------------------------
-- Methods and resources
-----------------------------------------------------------------------------------------

namespace Leads

variable {scope : Scope}

/-- Bodies are put under media types first and changed one by one after that. -/
theorem onBodies (leads : Leads R R' p) (around : R.All scope.library.allLeaves) (site : Target)
    {bodies : Bodies} (h : R.All (Bodies.leaves bodies))
    : Yields (p.onBodies scope site bodies) fun bodies => R'.All (Bodies.leaves bodies) :=
  Yields.bind (leads.bodies h) fun _ h =>
    all_mapM h fun _ _ h => leads.type scope around _ h

/-- A response is annotated, has headers and has bodies, and nothing else in it is turned. -/
theorem onResponse (leads : Leads R R' p) (around : R.All scope.library.allLeaves) {r : Response}
    (h : R.All r.leaves)
    : Yields (p.onResponse scope r) fun r => R'.All r.leaves := by
  have parts := all_response.mp h
  refine Yields.bind (leads.annotations scope _ parts.annotations) fun annotations applied => ?_
  refine Yields.bind (leads.properties scope around parts.headers) fun headers ofHeaders => ?_
  refine Yields.bind (leads.onBodies around _ parts.bodies) fun bodies ofBodies => Yields.ok ?_
  exact all_response.mpr ⟨applied, ofHeaders, ofBodies⟩

theorem onResponses (leads : Leads R R' p) (around : R.All scope.library.allLeaves)
    {responses : Responses} (h : R.All (Responses.leaves responses))
    : Yields (p.onResponses scope responses) fun responses =>
        R'.All (Responses.leaves responses) := by
  obtain ⟨unique, each⟩ := all_responses.mp h
  intro results mapped
  obtain ⟨statuses, all⟩ :=
    mapM_keyed (Q := fun _ r => R'.All r.leaves) (fun entry member =>
      (leads.onResponse around (each entry member)).keyed entry.1) results mapped
  exact all_responses.mpr ⟨statuses ▸ unique, all⟩

mutual

/-- By induction on the method, together with the traits in it. -/
theorem onMethod (leads : Leads R R' p) (around : R.All scope.library.allLeaves) (target : Target)
    : ∀ m : Method, R.All m.leaves → Yields (p.onMethod scope target m) fun m => R'.All m.leaves
  | ⟨_, _, _, _, _, _, _, _, _, is, _, _⟩, h => by
      have parts := all_method.mp h
      refine Yields.bind (leads.annotations scope _ parts.annotations) fun _ annotations => ?_
      refine Yields.bind (leads.properties scope around parts.queryParameters)
        fun _ queryParameters => ?_
      refine Yields.bind (leads.properties scope around parts.headers) fun _ headers => ?_
      refine Yields.bind (leads.onTraits around is parts.is) fun _ is => ?_
      refine Yields.bind (leads.onBodies around _ parts.bodies) fun _ bodies => ?_
      refine Yields.bind (leads.onResponses around parts.responses) fun _ responses => ?_
      exact Yields.ok (all_method.mpr ⟨annotations, queryParameters, headers, parts.queryString,
        responses, bodies, is, parts.securedBy⟩)

theorem onTrait (leads : Leads R R' p) (around : R.All scope.library.allLeaves)
    : ∀ t : Trait, R.All t.leaves → Yields (p.onTrait scope t) fun t => R'.All t.leaves
  | ⟨_, method, _, _, _, _, _⟩, h => by
      rw [Pass.onTrait]
      refine Yields.bind (leads.trait scope around h) fun done? obeys => ?_
      cases done? with
      | some done => exact Yields.ok (obeys done rfl)
      | none =>
          refine Yields.bind (leads.onMethod around .trait method h) fun method obeys => ?_
          exact Yields.ok obeys

theorem onTraits (leads : Leads R R' p) (around : R.All scope.library.allLeaves)
    : ∀ traits : List Trait, R.All (traitLeaves traits)
      → Yields (p.onTraits scope traits) fun traits => R'.All (traitLeaves traits)
  | [], _ => Yields.ok all_nil
  | t :: traits, h => by
      obtain ⟨first, rest⟩ := all_append.mp h
      refine Yields.bind (leads.onTrait around t first) fun t own => ?_
      refine Yields.bind (leads.onTraits around traits rest) fun traits others => Yields.ok ?_
      exact all_append.mpr ⟨own, others⟩

end

mutual

/-- By induction on the resource, together with those below it. -/
theorem onResource (leads : Leads R R' p) (around : R.All scope.library.allLeaves) (key : String)
    : ∀ r : Resource, R.All r.leaves → Yields (p.onResource scope key r) fun r => R'.All r.leaves
  | ⟨_, _, _, _, _, _, _, _, resources⟩, h => by
      have parts := all_resource.mp h
      rw [Pass.onResource]
      refine Yields.bind (leads.annotations scope _ parts.annotations) fun _ annotations => ?_
      refine Yields.bind (leads.properties scope around (leads.uriParameters key parts.uriParameters))
        fun _ uriParameters => ?_
      refine Yields.bind (leads.onTraits around _ parts.is) fun _ is => ?_
      refine Yields.bind (all_mapM parts.methods fun _ _ h => leads.onMethod around .method _ h)
        fun _ methods => ?_
      obtain ⟨unique, below⟩ := all_resources.mp parts.resources
      refine Yields.bind (leads.onResources around resources below)
        fun _ ⟨keys, resources⟩ => Yields.ok ?_
      exact all_resource.mpr ⟨annotations, methods, is, parts.type, parts.securedBy, uriParameters,
        all_resources.mpr ⟨keys ▸ unique, resources⟩⟩

theorem onResources (leads : Leads R R' p) (around : R.All scope.library.allLeaves)
    : ∀ resources : Resources, (∀ entry ∈ resources, R.All entry.2.leaves)
      → Yields (p.onResources scope resources) fun resources' =>
          Keyed.keys resources' = Keyed.keys resources
            ∧ ∀ entry ∈ resources', R'.All entry.2.leaves
  | [], _ => Yields.ok ⟨rfl, nofun⟩
  | (key, r) :: resources, h => by
      obtain ⟨first, rest⟩ := List.forall_mem_cons.mp h
      refine Yields.bind (leads.onResource around key r first) fun r own => ?_
      refine Yields.bind (leads.onResources around resources rest)
        fun resources ⟨keys, others⟩ => Yields.ok ⟨?_, ?_⟩
      · exact congrArg (key :: ·) keys
      · exact List.forall_mem_cons.mpr ⟨own, others⟩

end

end Leads

-----------------------------------------------------------------------------------------
-- Libraries and documents
-----------------------------------------------------------------------------------------

namespace Leads

/-- A library obeys the rules after the pass if those that it uses come to obey them. -/
theorem onLibrary_of {scope : Scope} (leads : Leads R R' p)
    (around : R.All scope.library.allLeaves) (target : Target) {l : Library} (own : R.OfLibrary l)
    (inside : Yields (p.onUses scope l.uses) fun uses' => Keyed.keys uses' = Keyed.keys l.uses
      ∧ ∀ name used, (name, Use.loaded used) ∈ uses' → R'.All used.allLeaves)
    : Yields (p.onLibrary scope target l) fun l => R'.All l.allLeaves := by
  obtain ⟨_, _, types, traits, _, annotationTypes, annotations, _, uses, _⟩ := l
  have declared := all_mapM (leads.annotationTypes own.annotationTypes)
    (f := fun a : AnnotationType => do
      return { a with type := ← p.type scope [.annotationType] a.type }) fun entry _ h =>
    Yields.bind (leads.type scope around _ (all_annotationType.mp h)) fun type h =>
      Yields.ok (all_annotationType.mpr h)
  rw [Pass.onLibrary]
  refine Yields.bind (all_mapM own.types fun _ _ h => leads.type scope around _ h)
    fun _ types => ?_
  refine Yields.bind (all_mapM own.traits fun _ _ h => leads.onTrait around _ h) fun _ traits => ?_
  refine Yields.bind declared fun _ annotationTypes => ?_
  refine Yields.bind (leads.annotations scope _ own.annotations) fun _ annotations => ?_
  refine Yields.bind inside fun uses ⟨keys, used⟩ => Yields.ok ?_
  exact all_library.mpr ⟨⟨own.schemas, types, traits, own.resourceTypes, annotationTypes,
    annotations, own.securitySchemes, keys ▸ own.uses⟩, used⟩

/-- By induction from the libraries that are used to those that use them. -/
theorem onLibrary (leads : Leads R R' p) {l : Library} {scope : Scope}
    (same : scope.library = l) (target : Target) (h : R.All l.allLeaves)
    : Yields (p.onLibrary scope target l) fun l => R'.All l.allLeaves := by
  induction l using Library.induct generalizing scope target with
  | step l ih =>
      obtain ⟨own, used⟩ := all_library.mp h
      have around : R.All scope.library.allLeaves := same ▸ h
      refine leads.onLibrary_of around target own ?_
      rw [onUses_eq]
      exact all_changeUses fun name m member => ih name m member rfl .library (used name m member)

/-- What obeys rules before a pass obeys others after it. -/
theorem run (leads : Leads R R' p) (target : Target) {d : Document} (h : R.All d.allLeaves)
    : Yields (p.run target d) fun d' => R'.All d'.allLeaves := by
  have parts := all_document.mp h
  have around : R.All d.scope.library.allLeaves := parts.library
  obtain ⟨unique, below⟩ := all_resources.mp parts.resources
  refine Yields.bind (leads.onLibrary rfl target parts.library) fun library ofLibrary => ?_
  refine Yields.bind (leads.onResources around d.resources below) fun _ ⟨keys, resources⟩ => ?_
  refine Yields.bind (leads.properties d.scope around parts.baseUriParameters)
    fun _ parameters => Yields.ok ?_
  exact all_document.mpr ⟨ofLibrary, parameters, parts.securedBy,
    all_resources.mpr ⟨keys ▸ unique, resources⟩⟩

end Leads

end Pass

-----------------------------------------------------------------------------------------
-- Hooks
-----------------------------------------------------------------------------------------

variable {R M R' : Rules}

/-- Properties obey rules if they have names and their types obey them. -/
theorem Rules.ofProperties_iff_named {properties : Properties}
    : R.OfProperties properties
      ↔ properties.Named ∧ ∀ key p, (key, p) ∈ properties → R.All p.type.leaves := by
  simp only [OfProperties, Properties.Named, Prod.forall, and_assoc, forall_and]

/-- With other types, properties have the same keys and names. -/
theorem Properties.Named.ofProperties {properties : Properties} (h : properties.Named)
    {types : List TypeNode} (each : ∀ t ∈ types, R.All t.leaves)
    : R.OfProperties (properties.withTypes types) :=
  Rules.ofProperties_iff_named.mpr
    ⟨h.withTypes types, fun _ p member => each p.type (mem_withTypes member)⟩

namespace TypeNode

/-- Examples are changed one by one under their names. -/
theorem mapExamplesM_leads {f : Example → Except Error Example} {t : TypeNode}
    (single : ∀ e ∈ t.declaration.example?, R.All (e.leaves t.kind))
    (named : R.All (Examples.leaves t.kind t.declaration.examples))
    (each : ∀ e, R.All (e.leaves t.kind) → Yields (f e) fun e => R'.All (e.leaves t.kind))
    : Yields (t.mapExamplesM f) fun t' => ∃ example? examples,
        t' = t.withExamples example? examples ∧ (∀ e ∈ example?, R'.All (e.leaves t.kind))
          ∧ R'.All (Examples.leaves t.kind examples) := by
  have single : Yields (t.declaration.example?.mapM f) fun example? =>
      ∀ e ∈ example?, R'.All (e.leaves t.kind) := by
    cases own : t.declaration.example? with
    | none => exact Yields.ok nofun
    | some e =>
        rw [Option.mapM_some]
        refine Yields.map fun e' changed => ?_
        rintro _ ⟨⟩
        exact each e (single e own) e' changed
  refine Yields.bind single fun example? single => ?_
  refine Yields.bind (all_mapM named fun entry _ h => each entry.2 h)
    fun examples named => Yields.ok ⟨example?, examples, rfl, single, named⟩

end TypeNode

/-- What hooks make of a type by itself: the rules `M` hold between the hook for the type and the one
for annotations. -/
structure TypeHooks.Leads (R M R' : Rules) (hooks : TypeHooks) : Prop where
  node {t : TypeNode} (h : R.All t.leaves) : Yields (hooks.node t) M.OfType
  properties {ps : Properties} (h : R.OfProperties ps)
    : Yields (hooks.properties ps) Properties.Named
  annotations (targets : List Target) {annotations : Annotations}
    (h : M.All (Annotations.leaves annotations))
    : Yields (hooks.annotations targets annotations) fun a => R'.All (Annotations.leaves a)
  examples {kind : Kind} {value : Option Value} {included loaded : Bool}
    (h : M.ofExample kind value included loaded) : R'.ofExample kind value included loaded

namespace TypeHooks.Leads

variable {hooks : TypeHooks}

/-- Hooks turn the node itself. Its properties are left to the visit. -/
theorem apply (leads : Leads R M R' hooks) (targets : List Target) {t : TypeNode}
    (h : R.All t.leaves)
    : Yields (hooks.apply targets t) R'.OfType := by
  refine Yields.bind (leads.node h) fun u own => ?_
  refine Yields.bind (leads.annotations targets own.declaration.annotations)
    fun annotations applied => ?_
  have each (e : Example) (sound : M.All (e.leaves u.kind))
      : Yields (do return { e with annotations := ← hooks.annotations [.example] e.annotations })
          fun e => R'.All (e.leaves u.kind) := by
    obtain ⟨⟨regular, allowed⟩, inner⟩ := all_example.mp sound
    refine Yields.bind (leads.annotations [.example] inner) fun annotations applied => Yields.ok ?_
    exact all_example.mpr ⟨⟨regular, leads.examples allowed⟩, applied⟩
  have declared := own.declaration
  intro v mapped
  obtain ⟨example?, examples, rfl, single, named⟩ := TypeNode.mapExamplesM_leads
    (t := { u with declaration := { u.declaration with annotations } }) declared.single
    declared.named each v mapped
  exact ⟨own.name, own.kind, own.inPlace, ⟨declared.default?, declared.schema, single, named,
    applied, declared.facets, declared.xml⟩, own.values, own.discriminatorValue, own.items⟩

/-- By induction on the depth of properties. -/
theorem visit (leads : Leads R M R' hooks) (targets : List Target) {t : TypeNode}
    (h : R.All t.leaves)
    : Yields (t.visit hooks targets) fun t => R'.All t.leaves := by
  induction t using TypeNode.induct generalizing targets with
  | step t ih =>
      have inside := (all_type.mp h).2
      have each := visitTypes_yields fun key p member =>
        ih key p member [.typeDeclaration] (inside.2 _ member).2
      rw [TypeNode.visit_eq]
      refine Yields.bind (leads.apply targets h) fun visited own => ?_
      refine Yields.bind (leads.properties inside) fun renamed named => ?_
      refine Yields.bind each fun types all => Yields.ok ?_
      exact all_type.mpr ⟨own.withProperties _, named.ofProperties all⟩

/-- The types of properties are turned at every depth. -/
theorem visitProperties (leads : Leads R M R' hooks) {properties : Properties}
    (h : R.OfProperties properties)
    : Yields (properties.visit hooks) R'.OfProperties := by
  have each := visitTypes_yields fun key p member =>
    leads.visit [.typeDeclaration] (h.2 (key, p) member).2
  refine Yields.bind (leads.properties h) fun renamed named => ?_
  exact Yields.bind each fun types all => Yields.ok (named.ofProperties all)

end TypeHooks.Leads

/-- What hooks make of types by themselves, the pass that visits all types makes of them all. -/
theorem Pass.leads_ofHooks {hooks : Scope → TypeHooks}
    (leads : ∀ scope : Scope, R.All scope.library.allLeaves → (hooks scope).Leads R M R')
    (annotations : ∀ (scope : Scope) (targets : List Target) {annotations : Annotations},
      R.All (Annotations.leaves annotations)
        → Yields ((hooks scope).annotations targets annotations) fun a =>
            R'.All (Annotations.leaves a))
    : Leads R R' (ofHooks hooks) where
  type scope around targets _ h := (leads scope around).visit targets h
  properties scope around _ h := (leads scope around).visitProperties h
  annotations := annotations
  annotationTypes h := h
  trait _ _ _ _ := Yields.ok nofun
  uriParameters _ _ h := h
  bodies h := Yields.ok h

end Raml
