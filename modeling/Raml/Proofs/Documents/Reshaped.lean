import Raml.Proofs.Tables

/-! Passes that put other tables of bodies and other parameters of resources in place, and change
nothing else.

The tables of bodies of a document come in the order of the walk, and the pass fails if the change of
one of them does. Otherwise every table is changed where it stands.
-/

namespace Raml

-----------------------------------------------------------------------------------------
-- The tables of bodies
-----------------------------------------------------------------------------------------

mutual

/-- The tables of bodies in a method, or in what a trait has in common with methods: those of the
traits that it uses, its own, and those of its responses. -/
def Method.bodyTables : Method → List Bodies
  | ⟨_, _, _, _, _, _, responses, bodies, _, is, _, _⟩ =>
      traitBodyTables is ++ bodies :: responses.map fun (_, r) => r.bodies

def Trait.bodyTables : Trait → List Bodies
  | ⟨_, method, _, _, _, _, _⟩ => method.bodyTables

def traitBodyTables : List Trait → List Bodies
  | [] => []
  | t :: traits => t.bodyTables ++ traitBodyTables traits

end

mutual

/-- The tables of bodies in a resource and in those below it. -/
def Resource.bodyTables : Resource → List Bodies
  | ⟨_, _, _, methods, is, _, _, _, resources⟩ =>
      traitBodyTables is ++ methods.flatMap (fun (_, m) => m.bodyTables)
        ++ resourceBodyTables resources

def resourceBodyTables : List (String × Resource) → List Bodies
  | [] => []
  | (_, r) :: resources => r.bodyTables ++ resourceBodyTables resources

end

mutual

/-- The tables of bodies in the traits of a library and of those that it uses. -/
def Library.bodyTables : Library → List Bodies
  | ⟨_, _, _, traits, _, _, _, _, uses, _⟩ =>
      traits.flatMap (fun (_, t) => t.bodyTables) ++ useBodyTables uses

def Use.bodyTables : Use → List Bodies
  | .external _ => []
  | .loaded library => library.bodyTables

def useBodyTables : List (String × Use) → List Bodies
  | [] => []
  | (_, use) :: uses => use.bodyTables ++ useBodyTables uses

end

/-- The tables of bodies in a document and in its libraries, in the order of the walk. -/
def Document.bodyTables (d : Document) : List Bodies :=
  d.library.bodyTables ++ resourceBodyTables d.resources

-----------------------------------------------------------------------------------------
-- Other tables in their places
-----------------------------------------------------------------------------------------

section Reshaping

variable (f : Bodies → Bodies) (g : String → Properties → Properties)

mutual

/-- A method with other tables of bodies. -/
def Method.reshape : Method → Method
  | m@⟨_, _, _, _, _, _, responses, bodies, _, is, _, _⟩ =>
      { m with
        responses := responses.map fun (status, r) => (status, { r with bodies := f r.bodies })
        bodies := f bodies
        is := reshapeTraits is }

def Trait.reshape : Trait → Trait
  | t@⟨_, method, _, _, _, _, _⟩ => { t with method := method.reshape }

def reshapeTraits : List Trait → List Trait
  | [] => []
  | t :: traits => t.reshape :: reshapeTraits traits

end

mutual

/-- The resource under a key, with other tables of bodies and other parameters, and those below it. -/
def Resource.reshape (key : String) : Resource → Resource
  | r@⟨_, _, _, methods, is, _, _, uriParameters, resources⟩ =>
      { r with
        methods := Keyed.mapValues (Method.reshape f) methods
        is := reshapeTraits f is
        uriParameters := g key uriParameters
        resources := reshapeResources resources }

def reshapeResources : List (String × Resource) → List (String × Resource)
  | [] => []
  | (key, r) :: resources => (key, r.reshape key) :: reshapeResources resources

end

mutual

/-- A library and those that it uses, with other tables of bodies. -/
def Library.reshape : Library → Library
  | l@⟨_, _, _, traits, _, _, _, _, uses, _⟩ =>
      { l with traits := Keyed.mapValues (Trait.reshape f) traits, uses := reshapeUses uses }

def Use.reshape : Use → Use
  | .external path => .external path
  | .loaded library => .loaded library.reshape

def reshapeUses : List (String × Use) → List (String × Use)
  | [] => []
  | (name, use) :: uses => (name, use.reshape) :: reshapeUses uses

end

/-- A document with other tables of bodies, and other parameters of its resources. -/
def Document.reshape (d : Document) : Document :=
  { d with library := d.library.reshape f, resources := reshapeResources f g d.resources }

mutual

/-- The tables of a changed method are its tables, each changed. -/
theorem Method.bodyTables_reshape : ∀ m : Method, (m.reshape f).bodyTables = m.bodyTables.map f
  | ⟨_, _, _, _, _, _, _, _, _, is, _, _⟩ => by
      simp [Method.reshape, Method.bodyTables, traitBodyTables_reshape is]

theorem Trait.bodyTables_reshape : ∀ t : Trait, (t.reshape f).bodyTables = t.bodyTables.map f
  | ⟨_, method, _, _, _, _, _⟩ => method.bodyTables_reshape

theorem traitBodyTables_reshape
    : ∀ traits : List Trait, traitBodyTables (reshapeTraits f traits)
        = (traitBodyTables traits).map f
  | [] => rfl
  | t :: traits => by
      simp [reshapeTraits, traitBodyTables, t.bodyTables_reshape, traitBodyTables_reshape traits]

end

mutual

/-- The tables of changed resources are theirs, each changed, by induction on the resource. -/
theorem Resource.bodyTables_reshape (key : String)
    : ∀ r : Resource, (r.reshape f g key).bodyTables = r.bodyTables.map f
  | ⟨_, _, _, _, _, _, _, _, resources⟩ => by
      simp [Resource.reshape, Resource.bodyTables, traitBodyTables_reshape,
        Method.bodyTables_reshape, Keyed.mapValues, List.flatMap_map, List.map_flatMap,
        resourceBodyTables_reshape resources]

theorem resourceBodyTables_reshape
    : ∀ resources : List (String × Resource),
        resourceBodyTables (reshapeResources f g resources) = (resourceBodyTables resources).map f
  | [] => rfl
  | (key, r) :: resources => by
      simp [reshapeResources, resourceBodyTables, r.bodyTables_reshape key,
        resourceBodyTables_reshape resources]

end

mutual

/-- The tables of changed libraries are theirs, each changed, by induction on what they use. -/
theorem Library.bodyTables_reshape : ∀ l : Library, (l.reshape f).bodyTables = l.bodyTables.map f
  | ⟨_, _, _, _, _, _, _, _, uses, _⟩ => by
      simp [Library.reshape, Library.bodyTables, Trait.bodyTables_reshape, Keyed.mapValues,
        List.flatMap_map, List.map_flatMap, useBodyTables_reshape uses]

theorem Use.bodyTables_reshape : ∀ use : Use, (use.reshape f).bodyTables = use.bodyTables.map f
  | .external _ => rfl
  | .loaded library => library.bodyTables_reshape

theorem useBodyTables_reshape
    : ∀ uses : List (String × Use), useBodyTables (reshapeUses f uses) = (useBodyTables uses).map f
  | [] => rfl
  | (_, use) :: uses => by
      simp [reshapeUses, useBodyTables, use.bodyTables_reshape, useBodyTables_reshape uses]

end

/-- The tables of bodies are changed one by one, each where it stands. -/
theorem Document.bodyTables_reshape (d : Document)
    : (d.reshape f g).bodyTables = d.bodyTables.map f := by
  simp [Document.reshape, Document.bodyTables, Library.bodyTables_reshape,
    resourceBodyTables_reshape]

end Reshaping

-----------------------------------------------------------------------------------------
-- Tables of bodies that stay as they are
-----------------------------------------------------------------------------------------

mutual

/-- To change no table is to change nothing. -/
theorem Method.reshape_id : ∀ m : Method, m.reshape id = m
  | ⟨_, _, _, _, _, _, _, _, _, is, _, _⟩ => by
      simp [Method.reshape, reshapeTraits_id is]

theorem Trait.reshape_id : ∀ t : Trait, t.reshape id = t
  | ⟨_, method, _, _, _, _, _⟩ => by rw [Trait.reshape, method.reshape_id]

theorem reshapeTraits_id : ∀ traits : List Trait, reshapeTraits id traits = traits
  | [] => rfl
  | t :: traits => by rw [reshapeTraits, t.reshape_id, reshapeTraits_id traits]

end

mutual

/-- A library has no parameters, so nothing in it changes. -/
theorem Library.reshape_id : ∀ l : Library, l.reshape id = l
  | ⟨_, _, _, _, _, _, _, _, uses, _⟩ => by
      simp [Library.reshape, Trait.reshape_id, Keyed.mapValues, reshapeUses_id uses]

theorem Use.reshape_id : ∀ use : Use, use.reshape id = use
  | .external _ => rfl
  | .loaded library => congrArg Use.loaded library.reshape_id

theorem reshapeUses_id : ∀ uses : List (String × Use), reshapeUses id uses = uses
  | [] => rfl
  | (_, use) :: uses => by rw [reshapeUses, use.reshape_id, reshapeUses_id uses]

end

/-- If tables stay as they are, only parameters change. -/
theorem Resource.reshape_id (g : String → Properties → Properties) (key : String) (r : Resource)
    : r.reshape id g key
      = { r with
          uriParameters := g key r.uriParameters
          resources := reshapeResources id g r.resources } := by
  cases r
  simp [Resource.reshape, reshapeTraits_id, Method.reshape_id, Keyed.mapValues]

/-- What a document has besides its resources stays as it is then. -/
theorem Document.reshape_id (g : String → Properties → Properties) (d : Document)
    : d.reshape id g = { d with resources := reshapeResources id g d.resources } := by
  rw [Document.reshape, Library.reshape_id]

mutual

/-- Parameters that have been put in place once stay as they are the second time. -/
theorem Resource.reshape_again {g : String → Properties → Properties}
    (again : ∀ key ps, g key (g key ps) = g key ps) (key : String)
    : ∀ r : Resource, (r.reshape id g key).reshape id g key = r.reshape id g key
  | ⟨_, _, _, _, _, _, _, _, resources⟩ => by
      simp only [Resource.reshape_id, again, reshapeResources_again again resources]

/-- A change of parameters that makes no difference the second time makes none to resources either.
-/
theorem reshapeResources_again {g : String → Properties → Properties}
    (again : ∀ key ps, g key (g key ps) = g key ps)
    : ∀ resources : List (String × Resource),
        reshapeResources id g (reshapeResources id g resources) = reshapeResources id g resources
  | [] => rfl
  | (key, r) :: resources => by
      simp only [reshapeResources, r.reshape_again again key,
        reshapeResources_again again resources]

end

-----------------------------------------------------------------------------------------
-- The walk
-----------------------------------------------------------------------------------------

/-- A computation fails if something is lacking in one of the tables, and comes to a value if not. -/
def Settles {α : Type} (lacks : Bodies → Bool) (x : Except Error α) (tables : List Bodies) (a : α)
    : Prop :=
  x = if tables.any lacks then .error .missingMediaType else .ok a

namespace Settles

variable {α β : Type} {lacks : Bodies → Bool}

theorem ok (a : α) : Settles lacks (.ok a) [] a := rfl

/-- Of two computations in turn the first one that lacks something fails. -/
theorem bind {x : Except Error α} {h : α → Except Error β} {a : α} {b : β}
    {tables more : List Bodies} (first : Settles lacks x tables a)
    (rest : Settles lacks (h a) more b)
    : Settles lacks (x >>= h) (tables ++ more) b := by
  cases first
  cases rest' : tables.any lacks with
  | true => simp [Settles, rest', error_bind]
  | false => simpa [Settles, rest', ok_bind] using rest

theorem map {x : Except Error α} {a : α} {tables : List Bodies} (first : Settles lacks x tables a)
    (h : α → β)
    : Settles lacks (x >>= fun a => .ok (h a)) tables (h a) :=
  List.append_nil tables ▸ first.bind (.ok (h a))

/-- Elements are settled one after the other, by induction on the list. -/
theorem mapM {h : α → Except Error β} {k : α → β} {tables : α → List Bodies} {list : List α}
    (each : ∀ a ∈ list, Settles lacks (h a) (tables a) (k a))
    : Settles lacks (list.mapM h) (list.flatMap tables) (list.map k) := by
  induction list with
  | nil => exact .ok []
  | cons a list ih =>
      obtain ⟨first, rest⟩ := List.forall_mem_cons.mp each
      rw [List.mapM_cons]
      exact first.bind ((ih rest).map _)

/-- Entries keep their keys. -/
theorem onValues {h : α → Except Error α} {k : α → α} {tables : α → List Bodies}
    {entries : List (String × α)}
    (each : ∀ entry ∈ entries, Settles lacks (h entry.2) (tables entry.2) (k entry.2))
    : Settles lacks (Pass.onValues h entries) (entries.flatMap fun (_, a) => tables a)
        (Keyed.mapValues k entries) :=
  mapM fun entry member => (each entry member).map _

end Settles

namespace Pass

/-- A pass changes tables of bodies, in which something may be lacking, and parameters of resources.
All else it leaves as it is. -/
structure Reshapes (p : Pass) (lacks : Bodies → Bool) (f : Bodies → Bodies)
    (g : String → Properties → Properties) : Prop where
  type (s : Scope) (targets : List Target) (t : TypeNode) : p.type s targets t = .ok t
  properties (s : Scope) (ps : Properties) : p.properties s ps = .ok ps
  annotations (s : Scope) (targets : List Target) (a : Annotations)
    : p.annotations s targets a = .ok a
  annotationTypes (types : AnnotationTypes) : p.annotationTypes types = types
  trait (s : Scope) (t : Trait) : p.trait s t = .ok none
  uriParameters (key : String) (ps : Properties) : p.uriParameters key ps = g key ps
  bodies (b : Bodies) : Settles lacks (p.bodies b) [b] (f b)

namespace Reshapes

variable {p : Pass} {lacks : Bodies → Bool} {f : Bodies → Bodies}
  {g : String → Properties → Properties} {s : Scope}

/-- This is the only place where something may be lacking. -/
theorem onBodies (h : p.Reshapes lacks f g) (site : Target) (bodies : Bodies)
    : Settles lacks (p.onBodies s site bodies) [bodies] (f bodies) := by
  have inside (b : Bodies) : onValues (p.type s [.typeDeclaration, site]) b = .ok b :=
    onValues_idle (fun t => h.type s _ t) b
  simp only [Pass.onBodies, inside]
  exact (h.bodies bodies).map id

/-- Of a response only its table of bodies changes. -/
theorem onResponse (h : p.Reshapes lacks f g) (r : Response)
    : Settles lacks (p.onResponse s r) [r.bodies] { r with bodies := f r.bodies } := by
  simp only [Pass.onResponse, h.annotations, h.properties, ok_bind]
  exact (h.onBodies .responseBody r.bodies).map _

theorem onResponses (h : p.Reshapes lacks f g) (responses : Responses)
    : Settles lacks (p.onResponses s responses) (responses.map fun (_, r) => r.bodies)
        (responses.map fun (status, r) => (status, { r with bodies := f r.bodies })) := by
  have each := Settles.mapM fun entry (_ : entry ∈ responses) =>
    (h.onResponse (s := s) entry.2).map fun r => (entry.1, r)
  rwa [← List.map_eq_flatMap] at each

mutual

/-- By induction on the method, with the traits that it uses, whose tables come first. -/
theorem onMethod (h : p.Reshapes lacks f g) (target : Target)
    : ∀ m : Method, Settles lacks (p.onMethod s target m) m.bodyTables (m.reshape f)
  | ⟨_, _, _, _, _, _, responses, bodies, _, is, _, _⟩ => by
      simp only [Pass.onMethod, h.annotations, h.properties, ok_bind]
      refine (h.onTraits is).bind ((h.onBodies .requestBody bodies).bind ?_)
      exact (h.onResponses responses).map _

theorem onTrait (h : p.Reshapes lacks f g)
    : ∀ t : Trait, Settles lacks (p.onTrait s t) t.bodyTables (t.reshape f)
  | ⟨_, method, _, _, _, _, _⟩ => by
      simp only [Pass.onTrait, h.trait, ok_bind]
      exact (h.onMethod .trait method).map _

theorem onTraits (h : p.Reshapes lacks f g)
    : ∀ traits : List Trait, Settles lacks (p.onTraits s traits) (traitBodyTables traits)
        (reshapeTraits f traits)
  | [] => .ok []
  | t :: traits => (h.onTrait t).bind ((h.onTraits traits).map _)

end

mutual

/-- By induction on the resource. Its parameters change, and no failure comes of that. -/
theorem onResource (h : p.Reshapes lacks f g) (key : String)
    : ∀ r : Resource, Settles lacks (p.onResource s key r) r.bodyTables (r.reshape f g key)
  | ⟨_, _, _, methods, is, _, _, uriParameters, resources⟩ => by
      simp only [Pass.onResource, h.annotations, h.properties, h.uriParameters, ok_bind]
      rw [Resource.bodyTables, List.append_assoc]
      refine (h.onTraits is).bind ?_
      refine (Settles.onValues fun entry _ => h.onMethod .method entry.2).bind ?_
      exact (h.onResources resources).map _

theorem onResources (h : p.Reshapes lacks f g)
    : ∀ resources : List (String × Resource),
        Settles lacks (p.onResources s resources) (resourceBodyTables resources)
          (reshapeResources f g resources)
  | [] => .ok []
  | (key, r) :: resources => (h.onResource key r).bind ((h.onResources resources).map _)

end

mutual

/-- By induction on what the library uses. The scope of the walk does not matter. -/
theorem onLibrary (h : p.Reshapes lacks f g) (target : Target)
    : ∀ (l : Library) (s : Scope), Settles lacks (p.onLibrary s target l) l.bodyTables (l.reshape f)
  | ⟨_, _, types, traits, _, annotationTypes, _, _, uses, _⟩, s => by
      have ofTypes := onValues_idle (f := p.type s [.typeDeclaration]) (fun t => h.type s _ t) types
      have ofAnnotations := onValues_idle (f := fun a : AnnotationType => do
        return { a with type := ← p.type s [.annotationType] a.type })
        (fun a => by cases a; rw [h.type]; rfl) annotationTypes
      simp only [Pass.onLibrary, h.annotations, h.annotationTypes, ofTypes, ofAnnotations, ok_bind]
      refine (Settles.onValues fun entry _ => h.onTrait entry.2).bind ?_
      exact (h.onUses uses s).map _

theorem onUse (h : p.Reshapes lacks f g) (name : String)
    : ∀ (use : Use) (s : Scope), Settles lacks (p.onUse s name use) use.bodyTables (use.reshape f)
  | .external _, _ => .ok _
  | .loaded library, s => (h.onLibrary .library library (s.enter name library)).map _

theorem onUses (h : p.Reshapes lacks f g)
    : ∀ (uses : List (String × Use)) (s : Scope),
        Settles lacks (p.onUses s uses) (useBodyTables uses) (reshapeUses f uses)
  | [], _ => .ok []
  | (name, use) :: uses, s => (h.onUse name use s).bind ((h.onUses uses s).map _)

end

/-- The pass fails if something is lacking in one of the tables of bodies of a document. Otherwise
all tables are changed, wherever they stand. -/
theorem run (h : p.Reshapes lacks f g) (target : Target) (d : Document)
    : Settles lacks (p.run target d) d.bodyTables (d.reshape f g) := by
  simp only [Pass.run, h.properties, ok_bind]
  exact (h.onLibrary target d.library d.scope).bind ((h.onResources d.resources).map _)

end Reshapes

end Pass

end Raml
