import Raml.Proofs.Outcomes
import Raml.Proofs.Documents.Spots

/-! Walks through documents: what a pass does to what stands at each spot, it does to the document.

The statement is about two passes, so that it also says when a pass and another one come to the
same.
-/

namespace Raml

variable {allowed : Error → Prop} {P Q : Spot → Prop} {p p' : Pass}

/-- A scope as it is at a position: everything in its library is known to satisfy `P`. -/
structure Scope.At (P : Spot → Prop) (scope : Scope) (pos : Position) : Prop where
  directory : scope.directory = pos.directory
  library : ∀ spot ∈ scope.library.spots pos, P spot

/-- What a library declares and what it shares have the same scope. -/
theorem Scope.At.inRole {scope : Scope} {pos : Position} (around : scope.At P pos) (role : Role)
    : scope.At P (pos.inRole role) :=
  ⟨around.directory, by rw [Library.spots_inRole]; exact around.library⟩

namespace Pass

/-- Wherever they come by, both passes do the same, and what satisfied `P` comes to satisfy `Q`. -/
structure Carries (allowed : Error → Prop) (P Q : Spot → Prop) (p p' : Pass) : Prop where
  type (scope : Scope) (pos : Position) (targets : List Target) (t : TypeNode)
    (around : scope.At P pos) (h : P ⟨pos, .type t⟩)
    : Alike allowed (p.type scope targets t) (p'.type scope targets t) fun t => Q ⟨pos, .type t⟩
  properties (scope : Scope) (pos : Position) (ps : Properties)
    (around : scope.At P pos) (h : P ⟨pos, .properties ps⟩)
    : Alike allowed (p.properties scope ps) (p'.properties scope ps) fun ps =>
        Q ⟨pos, .properties ps⟩
  annotations (scope : Scope) (targets : List Target) (annotations : Annotations)
    : Alike allowed (p.annotations scope targets annotations)
        (p'.annotations scope targets annotations) fun _ => True
  annotationTypes (pos : Position) (types : AnnotationTypes)
    (h : ∀ entry ∈ types, P ⟨pos, .type entry.2.type⟩)
    : p.annotationTypes types = p'.annotationTypes types
      ∧ ∀ entry ∈ p.annotationTypes types, P ⟨pos, .type entry.2.type⟩
  trait (scope : Scope) (pos : Position) (t : Trait)
    (around : scope.At P pos) (h : ∀ part ∈ t.parts, P ⟨pos, part⟩)
    : Alike allowed (p.trait scope t) (p'.trait scope t) fun done? =>
        ∀ done, done? = some done → ∀ part ∈ done.parts, Q ⟨pos, part⟩
  uriParameters (key : String) (pos : Position) (ps : Properties) (h : P ⟨pos, .properties ps⟩)
    : p.uriParameters key ps = p'.uriParameters key ps
      ∧ P ⟨pos, .properties (p.uriParameters key ps)⟩
  bodies (pos : Position) (bodies : Bodies) (h : ∀ part ∈ bodies.parts, P ⟨pos, part⟩)
    : Alike allowed (p.bodies bodies) (p'.bodies bodies) fun bodies =>
        ∀ part ∈ bodies.parts, P ⟨pos, part⟩

/-- A pass that does nothing. Others do something at some of the places only. -/
theorem Carries.idle : Carries allowed P P {} {} where
  type _ _ _ _ _ h := Alike.ok h
  properties _ _ _ _ h := Alike.ok h
  annotations _ _ _ := Alike.ok trivial
  annotationTypes _ _ h := ⟨rfl, h⟩
  trait _ _ _ _ _ := Alike.ok nofun
  uriParameters _ _ _ h := ⟨rfl, h⟩
  bodies _ _ h := Alike.ok h

variable {scope : Scope} {pos : Position}

/-- Bodies are put under media types first and changed one by one after that. -/
theorem Carries.onBodies (carries : Carries allowed P Q p p') (around : scope.At P pos)
    (site : Target) {bodies : Bodies}
    (h : ∀ part ∈ Bodies.parts bodies, P ⟨pos, part⟩)
    : Alike allowed (p.onBodies scope site bodies) (p'.onBodies scope site bodies) fun bodies =>
        ∀ part ∈ Bodies.parts bodies, Q ⟨pos, part⟩ := by
  unfold Pass.onBodies
  refine (carries.bodies pos bodies h).bind fun bodies h => ?_
  refine (Alike.mapM (Q := fun entry => Q ⟨pos, .type entry.2⟩) fun entry member => ?_).mono ?_
  · refine (carries.type scope pos _ _ around ?_).bind fun t h => Alike.ok h
    exact h _ (List.mem_map_of_mem member)
  · intro bodies all part member
    obtain ⟨entry, inside, rfl⟩ := List.mem_map.mp member
    exact all entry inside

theorem Carries.onResponse (carries : Carries allowed P Q p p') (around : scope.At P pos)
    {r : Response} (h : ∀ part ∈ r.parts, P ⟨pos, part⟩)
    : Alike allowed (p.onResponse scope r) (p'.onResponse scope r) fun r =>
        ∀ part ∈ r.parts, Q ⟨pos, part⟩ := by
  obtain ⟨headers, bodies⟩ := List.forall_mem_cons.mp h
  unfold Pass.onResponse
  refine (carries.annotations scope _ _).bind fun annotations _ => ?_
  refine (carries.properties scope pos _ around headers).bind fun headers h => ?_
  refine (carries.onBodies around _ bodies).bind fun bodies h' => ?_
  exact Alike.ok (List.forall_mem_cons.mpr ⟨h, h'⟩)

theorem Carries.onResponses (carries : Carries allowed P Q p p') (around : scope.At P pos)
    {responses : Responses}
    (h : ∀ entry ∈ responses, ∀ part ∈ entry.2.parts, P ⟨pos, part⟩)
    : Alike allowed (p.onResponses scope responses) (p'.onResponses scope responses)
        fun responses => ∀ entry ∈ responses, ∀ part ∈ entry.2.parts, Q ⟨pos, part⟩ :=
  Alike.mapM fun entry member =>
    (carries.onResponse around (h entry member)).bind fun _ h => Alike.ok h

mutual

/-- By induction on the method, together with the traits that it uses. -/
theorem Carries.onMethod (carries : Carries allowed P Q p p') (around : scope.At P pos)
    (target : Target) : ∀ m : Method, (∀ part ∈ m.parts, P ⟨pos, part⟩)
    → Alike allowed (p.onMethod scope target m) (p'.onMethod scope target m) fun m =>
        ∀ part ∈ m.parts, Q ⟨pos, part⟩
  | ⟨_, _, _, queryParameters, headers, _, responses, bodies, _, is, _, _⟩, h => by
      simp only [Method.parts, List.cons_append, List.forall_mem_cons, List.forall_mem_append,
        List.forall_mem_flatMap] at h
      obtain ⟨queryParameters, headers, ⟨is, bodies⟩, responses⟩ := h
      refine (carries.annotations scope _ _).bind fun annotations _ => ?_
      refine (carries.properties scope pos _ around queryParameters).bind
        fun _ queryParameters => ?_
      refine (carries.properties scope pos _ around headers).bind fun _ headers => ?_
      refine (carries.onTraits around _ is).bind fun _ is => ?_
      refine (carries.onBodies around _ bodies).bind fun _ bodies => ?_
      refine (carries.onResponses around responses).bind fun _ responses => Alike.ok ?_
      simp only [Method.parts, List.cons_append, List.forall_mem_cons, List.forall_mem_append,
        List.forall_mem_flatMap]
      exact ⟨queryParameters, headers, ⟨is, bodies⟩, responses⟩

/-- A trait that is filled in has what is shared for its parts. -/
theorem Carries.onTrait (carries : Carries allowed P Q p p') (around : scope.At P pos)
    : ∀ t : Trait, (∀ part ∈ t.parts, P ⟨pos, part⟩)
    → Alike allowed (p.onTrait scope t) (p'.onTrait scope t) fun t =>
        ∀ part ∈ t.parts, Q ⟨pos, part⟩
  | ⟨_, method, _, _, _, _, _⟩, h => by
      refine (carries.trait scope pos _ around h).bind fun done? h' => ?_
      cases done? with
      | some done => exact Alike.ok (h' done rfl)
      | none => exact (carries.onMethod around .trait method h).bind fun _ h => Alike.ok h

theorem Carries.onTraits (carries : Carries allowed P Q p p') (around : scope.At P pos)
    : ∀ traits : List Trait, (∀ part ∈ traitParts traits, P ⟨pos, part⟩)
    → Alike allowed (p.onTraits scope traits) (p'.onTraits scope traits) fun traits =>
        ∀ part ∈ traitParts traits, Q ⟨pos, part⟩
  | [], _ => Alike.ok (by simp [traitParts])
  | t :: traits, h => by
      obtain ⟨first, rest⟩ := List.forall_mem_append.mp h
      refine (carries.onTrait around t first).bind fun _ first => ?_
      refine (carries.onTraits around traits rest).bind fun _ rest => Alike.ok ?_
      exact List.forall_mem_append.mpr ⟨first, rest⟩

end

theorem Carries.onMethods (carries : Carries allowed P Q p p') (around : scope.At P pos)
    {methods : List (String × Method)}
    (h : ∀ entry ∈ methods, ∀ part ∈ entry.2.parts, P ⟨pos, part⟩)
    : Alike allowed (onValues (p.onMethod scope .method) methods)
        (onValues (p'.onMethod scope .method) methods) fun methods =>
          ∀ entry ∈ methods, ∀ part ∈ entry.2.parts, Q ⟨pos, part⟩ :=
  Alike.mapM fun entry member =>
    (carries.onMethod around .method entry.2 (h entry member)).bind fun _ h => Alike.ok h

mutual

/-- By induction on the resource, together with those below it. -/
theorem Carries.onResource (carries : Carries allowed P Q p p') (around : scope.At P pos)
    (key : String)
    : ∀ r : Resource, (∀ part ∈ r.parts, P ⟨pos, part⟩)
      → Alike allowed (p.onResource scope key r) (p'.onResource scope key r) fun r =>
          ∀ part ∈ r.parts, Q ⟨pos, part⟩
  | ⟨_, _, _, methods, is, _, _, uriParameters, resources⟩, h => by
      simp only [Resource.parts, List.cons_append, List.forall_mem_cons, List.forall_mem_append,
        List.forall_mem_flatMap] at h
      obtain ⟨parameters, ⟨is, methods⟩, resources⟩ := h
      obtain ⟨same, parameters⟩ := carries.uriParameters key pos uriParameters parameters
      rw [Pass.onResource, Pass.onResource, ← same]
      refine (carries.annotations scope _ _).bind fun annotations _ => ?_
      refine (carries.properties scope pos _ around parameters).bind fun _ parameters => ?_
      refine (carries.onTraits around _ is).bind fun _ is => ?_
      refine (carries.onMethods around methods).bind fun _ methods => ?_
      refine (carries.onResources around _ resources).bind fun _ resources => Alike.ok ?_
      simp only [Resource.parts, List.cons_append, List.forall_mem_cons, List.forall_mem_append,
        List.forall_mem_flatMap]
      exact ⟨parameters, ⟨is, methods⟩, resources⟩

theorem Carries.onResources (carries : Carries allowed P Q p p') (around : scope.At P pos)
    : ∀ resources : List (String × Resource), (∀ part ∈ resourceParts resources, P ⟨pos, part⟩)
      → Alike allowed (p.onResources scope resources) (p'.onResources scope resources)
          fun resources => ∀ part ∈ resourceParts resources, Q ⟨pos, part⟩
  | [], _ => Alike.ok (by simp [resourceParts])
  | (key, r) :: resources, h => by
      obtain ⟨first, rest⟩ := List.forall_mem_append.mp h
      refine (carries.onResource around key r first).bind fun _ first => ?_
      refine (carries.onResources around resources rest).bind fun _ rest => Alike.ok ?_
      exact List.forall_mem_append.mpr ⟨first, rest⟩

end

-----------------------------------------------------------------------------------------
-- Libraries and documents
-----------------------------------------------------------------------------------------

theorem Carries.onTypes (carries : Carries allowed P Q p p') (around : scope.At P pos)
    (targets : List Target) {types : Types} (h : ∀ entry ∈ types, P ⟨pos, .type entry.2⟩)
    : Alike allowed (onValues (p.type scope targets) types) (onValues (p'.type scope targets) types)
        fun types => ∀ entry ∈ types, Q ⟨pos, .type entry.2⟩ :=
  Alike.mapM fun entry member =>
    (carries.type scope pos targets entry.2 around (h entry member)).bind fun _ h => Alike.ok h

/-- Traits that are declared are walked like those that are used. -/
theorem Carries.onDeclaredTraits (carries : Carries allowed P Q p p') (around : scope.At P pos)
    {traits : Traits} (h : ∀ entry ∈ traits, ∀ part ∈ entry.2.parts, P ⟨pos, part⟩)
    : Alike allowed (onValues (p.onTrait scope) traits) (onValues (p'.onTrait scope) traits)
        fun traits => ∀ entry ∈ traits, ∀ part ∈ entry.2.parts, Q ⟨pos, part⟩ :=
  Alike.mapM fun entry member =>
    (carries.onTrait around entry.2 (h entry member)).bind fun _ h => Alike.ok h

theorem Carries.onAnnotationTypes (carries : Carries allowed P Q p p') (around : scope.At P pos)
    {types : AnnotationTypes} (h : ∀ entry ∈ types, P ⟨pos, .type entry.2.type⟩)
    : Alike allowed
        (onValues (fun a => do
          return { a with type := ← p.type scope [.annotationType] a.type }) types)
        (onValues (fun a => do
          return { a with type := ← p'.type scope [.annotationType] a.type }) types)
        fun types => ∀ entry ∈ types, Q ⟨pos, .type entry.2.type⟩ :=
  Alike.mapM fun entry member =>
    ((carries.type scope pos _ _ around (h entry member)).bind fun _ h =>
      Alike.ok (P := fun a : AnnotationType => Q ⟨pos, .type a.type⟩) h).bind fun _ h => Alike.ok h

mutual

/-- By induction on what the library uses: its scope is that of the position, and so on inside. -/
theorem Carries.onLibrary (carries : Carries allowed P Q p p') {scope : Scope} {pos : Position}
    (around : scope.At P pos) (target : Target)
    : ∀ l : Library, (∀ spot ∈ l.spots pos, P spot)
      → Alike allowed (p.onLibrary scope target l) (p'.onLibrary scope target l) fun l' =>
          l'.location = l.location ∧ ∀ spot ∈ l'.spots pos, Q spot
  | ⟨_, _, types, traits, _, annotationTypes, _, _, uses, _⟩, h => by
      obtain ⟨types, traits, annotationTypes, uses⟩ := Library.forall_spots_iff.mp h
      obtain ⟨same, annotationTypes⟩ := carries.annotationTypes (pos.inRole .own) _ annotationTypes
      rw [Pass.onLibrary, Pass.onLibrary, ← same]
      refine (carries.onTypes (around.inRole .declared) _ types).bind fun _ types => ?_
      refine (carries.onDeclaredTraits (around.inRole .shared) traits).bind fun _ traits => ?_
      refine (carries.onAnnotationTypes (around.inRole .own) annotationTypes).bind
        fun _ annotationTypes => ?_
      refine (carries.annotations scope _ _).bind fun annotations _ => ?_
      refine (carries.onUses around _ uses).bind fun _ uses => Alike.ok ⟨rfl, ?_⟩
      exact Library.forall_spots_iff.mpr ⟨types, traits, annotationTypes, uses⟩

theorem Carries.onUse (carries : Carries allowed P Q p p') {scope : Scope} {pos : Position}
    (around : scope.At P pos) (name : String)
    : ∀ use : Use, (∀ spot ∈ use.spots pos, P spot)
      → Alike allowed (p.onUse scope name use) (p'.onUse scope name use) fun use =>
          ∀ spot ∈ use.spots pos, Q spot
  | .external _, _ => Alike.ok (by simp [Use.spots])
  | .loaded library, h => by
      have entered : (scope.enter name library).At P (pos.enter library) :=
        ⟨by simp [Scope.enter, Position.enter, around.directory], h⟩
      refine (carries.onLibrary entered .library library h).bind fun library' h => Alike.ok ?_
      have same : pos.enter library' = pos.enter library := by simp [Position.enter, h.1]
      rw [Use.spots, same]
      exact h.2

theorem Carries.onUses (carries : Carries allowed P Q p p') {scope : Scope} {pos : Position}
    (around : scope.At P pos)
    : ∀ uses : Uses, (∀ spot ∈ useSpots pos uses, P spot)
      → Alike allowed (p.onUses scope uses) (p'.onUses scope uses) fun uses =>
          ∀ spot ∈ useSpots pos uses, Q spot
  | [], _ => Alike.ok (by simp [useSpots])
  | (name, use) :: uses, h => by
      obtain ⟨first, rest⟩ := List.forall_mem_append.mp h
      refine (carries.onUse around name use first).bind fun _ first => ?_
      refine (carries.onUses around uses rest).bind fun _ rest => Alike.ok ?_
      exact List.forall_mem_append.mpr ⟨first, rest⟩

end

/-- What passes carry along is carried through a document. The directories stay where they are. -/
theorem Carries.run (carries : Carries allowed P Q p p') (target : Target) {d : Document}
    (h : ∀ spot ∈ d.spots, P spot)
    : Alike allowed (p.run target d) (p'.run target d) fun d' =>
        d'.directory = d.directory ∧ d'.library.location = d.library.location
          ∧ ∀ spot ∈ d'.spots, Q spot := by
  obtain ⟨library, resources, parameters⟩ := Document.forall_spots_iff.mp h
  have around : d.scope.At P d.position := ⟨rfl, library⟩
  refine (carries.onLibrary around target _ library).bind fun _ library => ?_
  refine (carries.onResources around _ resources).bind fun _ resources => ?_
  refine (carries.properties _ _ _ around parameters).bind fun _ parameters => ?_
  exact Alike.ok ⟨rfl, library.1, Document.forall_spots_iff.mpr ⟨library.2, resources, parameters⟩⟩

end Pass

end Raml
