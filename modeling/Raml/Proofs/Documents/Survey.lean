import Raml.Pass
import Raml.Proofs.Outcomes
import Raml.Proofs.Documents.Sites

/-! Surveys: how the places of a document are related to those that a pass leaves, library by
library.

What a relation asks of a pass is said for each kind of node by itself. The places of a document are
joined from those of its nodes in the order in which a pass walks them, so the relation has to hold
of lists that are joined if it holds of their parts.
-/

namespace Raml

open Raml.TypeName (leadFrom)

variable {allowed : Error → Prop}

-----------------------------------------------------------------------------------------
-- Relations of places
-----------------------------------------------------------------------------------------

/-- The relation holds of places that are joined from related parts. -/
structure Site.Joins (R : List Site → List Site → Prop) : Prop where
  nil : R [] []
  append {a b c d : List Site} (first : R a c) (rest : R b d) : R (a ++ b) (c ++ d)

/-- Where each item of a list comes to have related places, so does the whole list. -/
theorem Site.Joins.mapM {R : List Site → List Site → Prop} (joins : Joins R) {α : Type}
    (places : α → List Site) {f : α → Except Error α} {list : List α}
    (each : ∀ a ∈ list, Alike allowed (f a) (f a) fun a' => R (places a) (places a'))
    : Alike allowed (list.mapM f) (list.mapM f) fun list' =>
        R (list.flatMap places) (list'.flatMap places) := by
  induction list with
  | nil => exact Alike.ok joins.nil
  | cons a list ih =>
      obtain ⟨first, rest⟩ := List.forall_mem_cons.mp each
      rw [List.mapM_cons]
      refine first.bind fun a' related => (ih rest).bind fun list' others => Alike.ok ?_
      simpa using joins.append related others

theorem Site.Joins.map {R : List Site → List Site → Prop} (joins : Joins R) {α : Type}
    (places : α → List Site) {f : α → α} {list : List α}
    (each : ∀ a ∈ list, R (places a) (places (f a)))
    : R (list.flatMap places) ((list.map f).flatMap places) := by
  induction list with
  | nil => exact joins.nil
  | cons a list ih =>
      obtain ⟨first, rest⟩ := List.forall_mem_cons.mp each
      exact joins.append first (ih rest)

/-- The same for lists that are related item by item. -/
theorem Site.Joins.forall₂ {R : List Site → List Site → Prop} (joins : Joins R) {α : Type}
    {places : α → List Site} {list list' : List α}
    (each : List.Forall₂ (fun a a' => R (places a) (places a')) list list')
    : R (list.flatMap places) (list'.flatMap places) := by
  induction each with
  | nil => exact joins.nil
  | cons first _ ih => exact joins.append first ih

/-- Nothing stands in the method that passes or the review look at. -/
structure Method.Blank (m : Method) : Prop where
  annotations : m.annotations = []
  queryParameters : m.queryParameters = []
  headers : m.headers = []
  is : m.is = []
  bodies : m.bodies = []
  responses : m.responses = []
  unexpected : m.unexpected = []

theorem Method.blank_empty : Method.empty.Blank := ⟨rfl, rfl, rfl, rfl, rfl, rfl, rfl⟩

namespace Pass

/-- Changing values leaves the keys as they are. -/
theorem keys_onValues {α : Type} {f : α → Except Error α} {entries entries' : Keyed α}
    (h : onValues f entries = .ok entries')
    : Keyed.keys entries' = Keyed.keys entries := by
  induction entries generalizing entries' with
  | nil =>
      cases h
      rfl
  | cons entry entries ih =>
      rw [onValues, List.mapM_cons] at h
      obtain ⟨_, first, h⟩ := bind_eq_ok_iff.mp h
      obtain ⟨rest, others, h⟩ := bind_eq_ok_iff.mp h
      obtain ⟨_, -, first⟩ := bind_eq_ok_iff.mp first
      cases first
      cases h
      simpa [Keyed.keys] using ih others

/-- Values that are changed have what each change yields. -/
theorem onValues_yields {α : Type} {P : α → Prop} {f : α → Except Error α}
    {entries : List (String × α)} (each : ∀ entry ∈ entries, Yields (f entry.2) P)
    : Yields (onValues f entries) fun entries' => ∀ entry ∈ entries', P entry.2 :=
  Yields.mapM fun entry member => Yields.bind (each entry member) fun _ holds => Yields.ok holds

/-- Entries keep their keys, and their places are related in their order. -/
theorem onValues_relates {R : List Site → List Site → Prop} (joins : Site.Joins R) {α : Type}
    (places : α → List Site) {f : α → Except Error α} {entries : List (String × α)}
    (each : ∀ entry ∈ entries,
      Alike allowed (f entry.2) (f entry.2) fun a' => R (places entry.2) (places a'))
    : Alike allowed (onValues f entries) (onValues f entries) fun entries' =>
        Keyed.keys entries' = Keyed.keys entries
          ∧ R (entries.flatMap fun entry => places entry.2)
            (entries'.flatMap fun entry => places entry.2) := by
  have related : Alike allowed (onValues f entries) (onValues f entries) fun entries' =>
      R (entries.flatMap fun entry => places entry.2)
        (entries'.flatMap fun entry => places entry.2) := by
    apply joins.mapM fun entry : String × α => places entry.2
    intro entry member
    exact (each entry member).bind fun _ related => Alike.ok related
  exact ⟨rfl, fun entries' ok => ⟨keys_onValues ok, related.result entries' ok⟩, related.error⟩

/-- Of nothing a pass makes nothing. -/
structure Empties (p : Pass) : Prop where
  properties (s : Scope) : p.properties s [] = .ok []
  annotations (s : Scope) (targets : List Target) : p.annotations s targets [] = .ok []
  bodies : p.bodies [] = .ok []

/-- What a pass does wherever it comes by: if `P` is known of the places at a node, they are related
to those that come in their stead. Both may depend on the library around the node. -/
structure Relates (allowed : Error → Prop) (P : Library → Site → Prop)
    (R : Library → List Site → List Site → Prop) (p : Pass) : Prop where
  joins (l : Library) : Site.Joins (R l)
  empties : p.Empties
  type (s : Scope) (t : TypeNode)
    (h : ∀ site ∈ t.sites s.lead [.typeDeclaration], P s.library site)
    : Alike allowed (p.type s [.typeDeclaration] t) (p.type s [.typeDeclaration] t) fun t' =>
        R s.library (t.sites s.lead [.typeDeclaration]) (t'.sites s.lead [.typeDeclaration])
  properties (s : Scope) (ps : Properties) (h : ∀ site ∈ propertySites s.lead ps, P s.library site)
    : Alike allowed (p.properties s ps) (p.properties s ps) fun ps' =>
        R s.library (propertySites s.lead ps) (propertySites s.lead ps')
  parameters (s : Scope) (key : String) (ps : Properties)
    (h : ∀ site ∈ propertySites s.lead ps, P s.library site)
    : Alike allowed (p.properties s (p.uriParameters key ps))
        (p.properties s (p.uriParameters key ps)) fun ps' =>
          R s.library (propertySites s.lead ps) (propertySites s.lead ps')
  annotations (s : Scope) (targets : List Target) (g : Annotations)
    (h : P s.library (.annotations s.lead targets g))
    : Alike allowed (p.annotations s targets g) (p.annotations s targets g) fun g' =>
        R s.library [.annotations s.lead targets g] [.annotations s.lead targets g']
  annotationTypes (s : Scope) (types : AnnotationTypes)
    (h : ∀ entry ∈ types, ∀ site ∈ entry.2.type.sites s.lead [.annotationType], P s.library site)
    : Alike allowed
        (onValues (fun a => do return { a with type := ← p.type s [.annotationType] a.type })
          (p.annotationTypes types))
        (onValues (fun a => do return { a with type := ← p.type s [.annotationType] a.type })
          (p.annotationTypes types))
        fun types' => Keyed.keys types' = Keyed.keys types
          ∧ R s.library (types.flatMap fun entry => entry.2.type.sites s.lead [.annotationType])
            (types'.flatMap fun entry => entry.2.type.sites s.lead [.annotationType])
  bodies (s : Scope) (site : Target) (bodies : Bodies)
    (h : ∀ place ∈ Bodies.sites s.lead site bodies, P s.library place)
    : Alike allowed (p.onBodies s site bodies) (p.onBodies s site bodies) fun bodies' =>
        R s.library (Bodies.sites s.lead site bodies) (Bodies.sites s.lead site bodies')
  trait (s : Scope) (t : Trait) (h : ∀ site ∈ t.sites s.lead, P s.library site)
    : Alike allowed (p.trait s t) (p.trait s t) fun done? =>
        ∀ done, done? = some done → R s.library (t.sites s.lead) (done.sites s.lead)
  /-- What is in a trait or in a method does not matter to the node itself. -/
  traitNode (l : Library) (lead : String) (t : Trait) (m : Method)
    (blank : t.method.Blank → m.Blank)
    : R l [.trait lead t] [.trait lead { t with method := m }]
  method (l : Library) (m m' : Method) : R l [.method m] [.method m']

-----------------------------------------------------------------------------------------
-- The nodes of a document
-----------------------------------------------------------------------------------------

variable {P : Library → Site → Prop} {R : Library → List Site → List Site → Prop} {p : Pass}

variable {s : Scope}

/-- A blank method stays blank. -/
theorem Empties.blank_onMethod (empties : p.Empties) {target : Target} {m m' : Method}
    (h : p.onMethod s target m = .ok m') (blank : m.Blank)
    : m'.Blank := by
  cases m
  obtain ⟨annotations, queryParameters, headers, is, bodies, responses, unexpected⟩ := blank
  cases annotations
  cases queryParameters
  cases headers
  cases is
  cases bodies
  cases responses
  cases unexpected
  rw [Pass.onMethod, onBodies, empties.annotations, ok_bind, empties.properties, ok_bind, ok_bind,
    empties.bodies] at h
  cases h
  exact ⟨rfl, rfl, rfl, rfl, rfl, rfl, rfl⟩

namespace Relates

/-- The places in a response are those of its annotations, of its headers and of its bodies. -/
theorem onResponse (relates : p.Relates allowed P R) {r : Response}
    (h : ∀ site ∈ r.sites s.lead, P s.library site)
    : Alike allowed (p.onResponse s r) (p.onResponse s r) fun r' =>
        R s.library (r.sites s.lead) (r'.sites s.lead) := by
  simp only [Response.sites, List.forall_mem_append, List.forall_mem_cons] at h
  obtain ⟨⟨annotations, headers⟩, bodies⟩ := h
  unfold Pass.onResponse
  refine (relates.annotations s _ _ annotations).bind fun _ annotations => ?_
  refine (relates.properties s _ headers).bind fun _ headers => ?_
  refine (relates.bodies s _ _ bodies).bind fun _ bodies => Alike.ok ?_
  have joins := relates.joins s.library
  exact joins.append (joins.append annotations headers) bodies

theorem onResponses (relates : p.Relates allowed P R) {responses : Responses}
    (h : ∀ entry ∈ responses, ∀ site ∈ entry.2.sites s.lead, P s.library site)
    : Alike allowed (p.onResponses s responses) (p.onResponses s responses) fun responses' =>
        R s.library (responses.flatMap fun entry => entry.2.sites s.lead)
          (responses'.flatMap fun entry => entry.2.sites s.lead) := by
  apply (relates.joins s.library).mapM fun entry : UInt16 × Response => entry.2.sites s.lead
  intro entry member
  exact (relates.onResponse (h entry member)).bind fun _ related => Alike.ok related

mutual

/-- By induction on the method, together with the traits that it uses. -/
theorem onMethod (relates : p.Relates allowed P R) (target : Target)
    : ∀ m : Method, (∀ site ∈ m.sites s.lead target, P s.library site)
      → Alike allowed (p.onMethod s target m) (p.onMethod s target m) fun m' =>
          R s.library (m.sites s.lead target) (m'.sites s.lead target)
  | ⟨_, _, _, _, _, _, _, _, _, is, _, _⟩, h => by
      simp only [Method.sites, List.forall_mem_append, List.forall_mem_cons,
        List.forall_mem_flatMap] at h
      obtain ⟨⟨⟨⟨⟨annotations, queryParameters⟩, headers⟩, is⟩, bodies⟩, responses⟩ := h
      refine (relates.annotations s _ _ annotations).bind fun _ annotations => ?_
      refine (relates.properties s _ queryParameters).bind fun _ queryParameters => ?_
      refine (relates.properties s _ headers).bind fun _ headers => ?_
      refine (relates.onTraits _ is).bind fun _ is => ?_
      refine (relates.bodies s _ _ bodies).bind fun _ bodies => ?_
      refine (relates.onResponses responses).bind fun _ responses => Alike.ok ?_
      have joins := relates.joins s.library
      have parameters := joins.append (joins.append annotations queryParameters) headers
      exact joins.append (joins.append (joins.append parameters is) bodies) responses

/-- A trait is a place itself, unless it is filled in by another one. -/
theorem onTrait (relates : p.Relates allowed P R)
    : ∀ t : Trait, (∀ site ∈ t.sites s.lead, P s.library site)
      → Alike allowed (p.onTrait s t) (p.onTrait s t) fun t' =>
          R s.library (t.sites s.lead) (t'.sites s.lead)
  | ⟨reference, method, usage, path, pathName, methodName, source⟩, h => by
      refine (relates.trait s _ h).bind fun done? related => ?_
      cases done? with
      | some done => exact Alike.ok (related done rfl)
      | none =>
          obtain ⟨-, inside⟩ := List.forall_mem_cons.mp h
          have known := (relates.onMethod .trait method inside).with_ok
          refine known.bind fun method' ⟨ok, inside⟩ => Alike.ok ?_
          let t : Trait := ⟨reference, method, usage, path, pathName, methodName, source⟩
          have node := relates.traitNode s.library s.lead t method'
            (relates.empties.blank_onMethod ok)
          exact (relates.joins s.library).append node inside

theorem onTraits (relates : p.Relates allowed P R)
    : ∀ traits : List Trait, (∀ site ∈ traitSites s.lead traits, P s.library site)
      → Alike allowed (p.onTraits s traits) (p.onTraits s traits) fun traits' =>
          R s.library (traitSites s.lead traits) (traitSites s.lead traits')
  | [], _ => Alike.ok (relates.joins s.library).nil
  | t :: traits, h => by
      obtain ⟨first, rest⟩ := List.forall_mem_append.mp h
      refine (relates.onTrait t first).bind fun _ first => ?_
      refine (relates.onTraits traits rest).bind fun _ rest => Alike.ok ?_
      exact (relates.joins s.library).append first rest

end

/-- Each method is a place, before the places in it. -/
theorem onMethods (relates : p.Relates allowed P R) {methods : List (String × Method)}
    (h : ∀ entry ∈ methods, P s.library (.method entry.2)
      ∧ ∀ site ∈ entry.2.sites s.lead .method, P s.library site)
    : Alike allowed (onValues (p.onMethod s .method) methods)
        (onValues (p.onMethod s .method) methods) fun methods' =>
          R s.library (methods.flatMap fun entry => .method entry.2 :: entry.2.sites s.lead .method)
            (methods'.flatMap fun entry => .method entry.2 :: entry.2.sites s.lead .method) := by
  refine (onValues_relates (relates.joins s.library) (fun m => .method m :: m.sites s.lead .method)
    ?_).mono fun _ related => related.2
  intro entry member
  refine (relates.onMethod .method entry.2 (h entry member).2).mono fun m' inside => ?_
  exact (relates.joins s.library).append (relates.method _ _ m') inside

mutual

/-- By induction on the resource, with those below it last. -/
theorem onResource (relates : p.Relates allowed P R) (key : String)
    : ∀ r : Resource, (∀ site ∈ r.sites s.lead, P s.library site)
      → Alike allowed (p.onResource s key r) (p.onResource s key r) fun r' =>
          R s.library (r.sites s.lead) (r'.sites s.lead)
  | ⟨_, _, _, methods, is, _, _, _, resources⟩, h => by
      simp only [Resource.sites, List.forall_mem_append, List.forall_mem_cons,
        List.forall_mem_flatMap] at h
      obtain ⟨⟨⟨⟨annotations, parameters⟩, is⟩, methods⟩, resources⟩ := h
      refine (relates.annotations s _ _ annotations).bind fun _ annotations => ?_
      refine (relates.parameters s key _ parameters).bind fun _ parameters => ?_
      refine (relates.onTraits _ is).bind fun _ is => ?_
      refine (relates.onMethods methods).bind fun _ methods => ?_
      refine (relates.onResources _ resources).bind fun _ resources => Alike.ok ?_
      have joins := relates.joins s.library
      have uses := joins.append (joins.append annotations parameters) is
      exact joins.append (joins.append uses methods) resources

theorem onResources (relates : p.Relates allowed P R)
    : ∀ resources : List (String × Resource),
      (∀ site ∈ resourceSites s.lead resources, P s.library site)
      → Alike allowed (p.onResources s resources) (p.onResources s resources) fun resources' =>
          R s.library (resourceSites s.lead resources) (resourceSites s.lead resources')
  | [], _ => Alike.ok (relates.joins s.library).nil
  | (key, r) :: resources, h => by
      obtain ⟨first, rest⟩ := List.forall_mem_append.mp h
      refine (relates.onResource key r first).bind fun _ first => ?_
      refine (relates.onResources resources rest).bind fun _ rest => Alike.ok ?_
      exact (relates.joins s.library).append first rest

end

end Relates

end Pass

-----------------------------------------------------------------------------------------
-- Libraries and documents
-----------------------------------------------------------------------------------------

/-- Both libraries declare traits and annotations under the same names. -/
def Library.SameNames (l l' : Library) : Prop :=
  Keyed.keys l'.traits = Keyed.keys l.traits
    ∧ Keyed.keys l'.annotationTypes = Keyed.keys l.annotationTypes

theorem Library.SameNames.trans {l l' l'' : Library} (h : l.SameNames l') (h' : l'.SameNames l'')
    : l.SameNames l'' :=
  ⟨h'.1.trans h.1, h'.2.trans h.2⟩

/-- Libraries behind namespaces, their names the same and their own places related. -/
def Library.Surveyed (R : Library → List Site → List Site → Prop) (lead : String) (target : Target)
    (path : List String) (l l' : Library) : Prop :=
  l.SameNames l' ∧ R l (l.ownSites (leadFrom lead path) (targetAt target path))
    (l'.ownSites (leadFrom lead path) (targetAt target path))

/-- The same for all places of a document. -/
def Document.Surveyed (R : Library → List Site → List Site → Prop) (target : Target)
    (d d' : Document) (path : List String) (l l' : Library) : Prop :=
  l.SameNames l' ∧ R l (d.sitesIn target path l) (d'.sitesIn target path l')

/-- The places of both documents are related, library by library. -/
def Document.Related (R : List Site → List Site → Prop) (target : Target) (d d' : Document) : Prop :=
  d.library.Corresponds (d.Surveyed (fun _ => R) target d') d'.library

/-- Relations that compose do so for whole documents. -/
theorem Document.Related.trans {R : List Site → List Site → Prop} {target : Target}
    {d d' d'' : Document} (h : d.Related R target d') (h' : d'.Related R target d'')
    (composes : ∀ a b c, R a b → R b c → R a c)
    : d.Related R target d'' := by
  refine (Library.Corresponds.trans h h').mono ?_
  intro path m m'' _ ⟨m', ⟨names, first⟩, names', second⟩
  exact ⟨names.trans names', composes _ _ _ first second⟩

namespace Library

@[simp] theorem targetAt_library (path : List String) : targetAt .library path = .library := by
  cases path <;> rfl

/-- What is behind a namespace counts as a library, whatever the namespaces start from. -/
theorem surveyed_cons (R : Library → List Site → List Site → Prop) (lead : String)
    (target : Target) (name : String)
    : Surveyed R (lead ++ name ++ ".") .library
      = fun path => Surveyed R lead target (name :: path) := by
  funext path l l'
  rw [Surveyed, targetAt_library]
  rfl

end Library

namespace Pass.Relates

open Library (Surveyed targetAt)

variable {P : Library → Site → Prop} {R : Library → List Site → List Site → Prop} {p : Pass}

mutual

/-- By induction on what the library uses: places are related behind every namespace. -/
theorem onLibrary (relates : p.Relates allowed P R) {s : Scope} (target : Target)
    : ∀ l : Library, s.library = l
      → (∀ path m, l.Reaches path m
        → ∀ site ∈ m.ownSites (leadFrom s.lead path) (targetAt target path), P m site)
      → Alike allowed (p.onLibrary s target l) (p.onLibrary s target l)
          (l.Corresponds (Surveyed R s.lead target))
  | ⟨usage, schemas, types, traits, resourceTypes, annotationTypes, annotations, securitySchemes,
      uses, location⟩, here, h => by
      have own := h [] _ (.self _)
      have inside : ∀ name used, (name, Use.loaded used) ∈ uses → ∀ path m, used.Reaches path m
          → ∀ site ∈ m.ownSites (leadFrom (s.lead ++ name ++ ".") path) .library, P m site :=
        fun name used member path m reaches => h (name :: path) m (.used member reaches)
      simp only [Library.ownSites, List.forall_mem_append, List.forall_mem_flatMap,
        List.forall_mem_singleton] at own
      rw [← here] at own
      obtain ⟨⟨⟨types, traits⟩, annotationTypes⟩, annotations⟩ := own
      have joins := relates.joins s.library
      refine (onValues_relates joins (·.sites s.lead [.typeDeclaration]) fun entry member =>
        relates.type s entry.2 (types entry member)).bind fun _ types => ?_
      refine (onValues_relates joins (·.sites s.lead) fun entry member =>
        relates.onTrait entry.2 (traits entry member)).bind fun _ traits => ?_
      refine (relates.annotationTypes s _ annotationTypes).bind fun _ annotationTypes => ?_
      refine (relates.annotations s _ _ annotations).bind fun _ annotations => ?_
      refine (relates.onUses target uses inside).bind fun _ uses => Alike.ok ?_
      have declared := joins.append (joins.append types.2 traits.2) annotationTypes.2
      have whole := joins.append declared annotations
      rw [here] at whole
      exact Library.corresponds_of_uses ⟨⟨traits.1, annotationTypes.1⟩, whole⟩ uses

theorem onUse (relates : p.Relates allowed P R) {s : Scope} (target : Target) (name : String)
    : ∀ use : Use,
      (∀ used, use = .loaded used → ∀ path m, used.Reaches path m
        → ∀ site ∈ m.ownSites (leadFrom (s.lead ++ name ++ ".") path) .library, P m site)
      → Alike allowed (p.onUse s name use) (p.onUse s name use)
          (Library.UseCorresponds (fun path => Surveyed R s.lead target (name :: path)) use)
  | .external path, _ => Alike.ok (.external path)
  | .loaded library, h => by
      refine (relates.onLibrary (s := s.enter name library) .library library rfl ?_).bind
        fun library' corresponds => Alike.ok (.loaded ?_)
      · intro path m reaches site inside
        rw [Library.targetAt_library] at inside
        exact h library rfl path m reaches site inside
      · rwa [← Library.surveyed_cons]

theorem onUses (relates : p.Relates allowed P R) {s : Scope} (target : Target)
    : ∀ uses : Uses,
      (∀ name used, (name, Use.loaded used) ∈ uses → ∀ path m, used.Reaches path m
        → ∀ site ∈ m.ownSites (leadFrom (s.lead ++ name ++ ".") path) .library, P m site)
      → Alike allowed (p.onUses s uses) (p.onUses s uses)
          (Library.UsesCorrespond (Surveyed R s.lead target) uses)
  | [], _ => Alike.ok .nil
  | (name, use) :: uses, h => by
      refine (relates.onUse target name use ?_).bind fun _ first => ?_
      · intro used same
        exact h name used (same ▸ List.mem_cons_self)
      · refine (relates.onUses target uses fun name used member =>
          h name used (List.mem_cons_of_mem _ member)).bind fun _ rest => Alike.ok ?_
        exact .cons ⟨rfl, first⟩ rest

end

/-- A pass relates the places of a document to those that it leaves, library by library. -/
theorem run (relates : p.Relates allowed P R) (target : Target) {d : Document}
    (h : ∀ path l, d.library.Reaches path l → ∀ site ∈ d.sitesIn target path l, P l site)
    : Alike allowed (p.run target d) (p.run target d) fun d' =>
        d.library.Corresponds (d.Surveyed R target d') d'.library := by
  have others := (List.forall_mem_append.mp (h [] _ (.self _))).2
  obtain ⟨resources, parameters⟩ := List.forall_mem_append.mp others
  refine (relates.onLibrary (s := d.scope) target _ rfl ?_).bind fun l' library => ?_
  · intro path m reaches site inside
    exact h path m reaches site (List.mem_append_left _ inside)
  refine (relates.onResources (s := d.scope) _ resources).bind fun _ resources => ?_
  refine (relates.properties d.scope _ parameters).bind fun _ parameters => Alike.ok ?_
  refine library.mono ?_
  rintro path m m' reaches ⟨names, own⟩
  have joins := relates.joins m
  cases reaches with
  | self => exact ⟨names, joins.append own (joins.append resources parameters)⟩
  | used => exact ⟨names, joins.append own joins.nil⟩

end Pass.Relates

end Raml
