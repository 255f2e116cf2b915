import Raml.Proofs.Documents.Loading
import Raml.Proofs.Documents.Survey

/-! What holds at all places of a document as it is written.

It has to be known of types, of properties and of annotations as they are decoded. Methods, traits,
resources and libraries consist of these, and loading brings in nothing else.
-/

namespace Raml

open Yaml (Node)

variable {Q : Site → Prop}

/-- It holds at all of the places. -/
def Site.All (Q : Site → Prop) (sites : List Site) : Prop := ∀ site ∈ sites, Q site

@[simp] theorem Site.all_nil : Site.All Q [] := nofun

namespace Decode

/-- What is decoded satisfies `Q` at each of its places, whatever leads there: so do types,
properties and annotations, and `Q` demands nothing of other places. -/
structure Spells (Q : Site → Prop) : Prop where
  typeNode (node : Node) (path : String)
    : Yields (typeNode node path) fun t => ∀ lead targets, Site.All Q (t.sites lead targets)
  annotationType (node : Node) (path : String)
    : Yields (annotationType node path) fun a =>
        ∀ lead targets, Site.All Q (a.type.sites lead targets)
  properties (node : Node) (path : String)
    : Yields (properties node path) fun ps => ∀ lead, Site.All Q (propertySites lead ps)
  annotations {node : Node} (f : Fields node)
    : Yields f.annotations fun g => ∀ lead targets, Q (.annotations lead targets g)
  unannotated (lead : String) (targets : List Target) : Q (.annotations lead targets [])
  trait (lead : String) (t : Trait) : Q (.trait lead t)
  method (m : Method) : Q (.method m)

namespace Spells

variable {node : Node}

/-- The properties in a field. -/
theorem field (spells : Spells Q) (f : Fields node) (key : String)
    : Yields (f.properties key) fun ps => ∀ lead, Site.All Q (propertySites lead ps) :=
  orElse_yields f key (by simp [propertySites]) fun inner path => spells.properties inner.1 path

/-- There is nothing to look at in a blank method. -/
theorem blank (spells : Spells Q) {m : Method} (blank : m.Blank) (lead : String) (target : Target)
    : Site.All Q (m.sites lead target) := by
  rw [Method.sites_eq, blank.annotations, blank.queryParameters, blank.headers, blank.is,
    blank.bodies, blank.responses]
  exact List.forall_mem_singleton.mpr (spells.unannotated lead [target])

/-- Bodies are types under media types, or a single type without one. -/
theorem bodies (spells : Spells Q) (node : Node) (path : String)
    : Yields (bodies node path) fun bodies =>
        ∀ lead site, Site.All Q (Bodies.sites lead site bodies) := by
  have single (node : Node)
      : Yields (do return [("", ← Decode.typeNode node path)]) fun bodies : Bodies =>
          ∀ lead site, Site.All Q (Bodies.sites lead site bodies) := by
    refine Yields.bind (spells.typeNode node path) fun type holds => Yields.ok ?_
    simpa [Bodies.sites] using fun lead site => holds lead _
  unfold Decode.bodies
  split
  · exact Yields.ok (by simp [Bodies.sites])
  · exact single _
  · exact single _
  · exact single _
  · refine Yields.skip fun f => ?_
    split
    · have table := collect_yields f (fun _ => true) fun _ inner path =>
        spells.typeNode inner.1 path
      intro bodies ok lead site
      exact List.forall_mem_flatMap.mpr fun entry member =>
        (table bodies ok).2 entry.1 entry.2 member lead _
    · exact single _
  · exact Yields.error _

theorem response (spells : Spells Q) (node : Node) (path : String)
    : Yields (response node path) fun r => ∀ lead, Site.All Q (r.sites lead) := by
  refine Yields.skip fun f => Yields.skip fun description => ?_
  refine Yields.bind (spells.annotations f) fun annotations own => ?_
  refine Yields.bind (spells.field f "headers") fun headers ofHeaders => ?_
  refine Yields.bind (orElse_yields f "body" (by simp [Bodies.sites]) fun inner path =>
    spells.bodies inner.1 path) fun bodies ofBodies => Yields.ok ?_
  intro lead
  rw [Response.sites, List.cons_append, Site.All, List.forall_mem_cons, List.forall_mem_append]
  exact ⟨own lead _, ofHeaders lead, ofBodies lead _⟩

/-- A response takes the place of another one with its status, or comes last. -/
theorem mem_insert {found : Responses} {status : UInt16} {r : Response} {entry : UInt16 × Response}
    (h : entry ∈ Responses.insert found status r)
    : entry ∈ found ∨ entry = (status, r) := by
  induction found with
  | nil => exact Or.inr (List.mem_singleton.mp h)
  | cons first found ih =>
      obtain ⟨s, q⟩ := first
      rw [Responses.insert] at h
      split at h
      · rename_i same
        rcases List.mem_cons.mp h with here | later
        · exact Or.inr (same ▸ here)
        · exact Or.inl (List.mem_cons_of_mem _ later)
      · rcases List.mem_cons.mp h with here | later
        · exact Or.inl (here ▸ List.mem_cons_self)
        · exact (ih later).imp_left (List.mem_cons_of_mem _)

theorem responses (spells : Spells Q) (node : Node) (path : String)
    : Yields (responses node path) fun responses =>
        ∀ entry ∈ responses, ∀ lead, Site.All Q (entry.2.sites lead) := by
  refine Yields.skip fun f => Yields.foldlM (by simp) fun found entry holds => ?_
  obtain ⟨key, inner⟩ := entry
  dsimp only
  split
  · exact Yields.error _
  · refine Yields.bind (spells.response _ _) fun r own => Yields.ok ?_
    intro entry member
    rcases mem_insert member with before | rfl
    · exact holds entry before
    · exact own

/-- A trait that is used is blank before it is filled in. -/
theorem bareTrait (spells : Spells Q) {t : Trait} (blank : t.method.Blank) (lead : String)
    : Site.All Q (t.sites lead) := by
  rw [t.sites_eq]
  exact List.forall_mem_cons.mpr ⟨spells.trait lead t, spells.blank blank lead .trait⟩

theorem traitUse (spells : Spells Q) (node : Node) (path : String)
    : Yields (traitUse node path) fun t => ∀ lead, Site.All Q (t.sites lead) := by
  have use (name : String) (lead : String) : Site.All Q ((Trait.use name).sites lead) :=
    spells.bareTrait Method.blank_empty lead
  unfold Decode.traitUse
  split
  · exact Yields.map fun name _ => use name
  · exact Yields.map fun name _ => use name
  · exact Yields.map fun name _ => use name
  · exact Yields.map fun name _ => use name
  · exact Yields.error _

theorem traitUses (spells : Spells Q) (node : Node) (path : String)
    : Yields (traitUses node path) fun uses =>
        ∀ t ∈ uses, ∀ lead, Site.All Q (t.sites lead) := by
  unfold Decode.traitUses
  split
  · exact Yields.ok (by simp)
  · exact Yields.mapM fun entry _ => spells.traitUse entry.1 _
  · exact Yields.bind (spells.traitUse _ path) fun t holds => Yields.ok (by simpa using holds)

/-- Traits that are used may be left out. -/
theorem is (spells : Spells Q) (f : Fields node)
    : Yields (f.orElse "is" Decode.traitUses []) fun uses =>
        ∀ t ∈ uses, ∀ lead, Site.All Q (t.sites lead) :=
  orElse_yields f "is" (by simp) fun inner path => spells.traitUses inner.1 path

/-- A method consists of types, of properties, of annotations and of blank traits. -/
theorem methodFields (spells : Spells Q) (f : Fields node) (ownKeys : List String)
    : Yields (methodFields f ownKeys) fun m => ∀ lead target, Site.All Q (m.sites lead target) := by
  refine Yields.skip fun displayName => Yields.skip fun description => ?_
  refine Yields.bind (spells.annotations f) fun annotations own => ?_
  refine Yields.bind (spells.field f "queryParameters") fun queryParameters ofParameters => ?_
  refine Yields.bind (spells.field f "headers") fun headers ofHeaders => ?_
  refine Yields.skip fun queryString => Yields.skip fun protocols => Yields.skip fun securedBy => ?_
  refine Yields.bind (orElse_yields f "responses" (by simp) fun inner path =>
    spells.responses inner.1 path) fun responses ofResponses => ?_
  refine Yields.bind (orElse_yields f "body" (by simp [Bodies.sites]) fun inner path =>
    spells.bodies inner.1 path) fun bodies ofBodies => ?_
  refine Yields.bind (spells.is f) fun is ofTraits => Yields.ok ?_
  intro lead target
  rw [Method.sites_eq, traitSites_eq]
  simp only [Site.All, List.cons_append, List.forall_mem_cons, List.forall_mem_append,
    List.forall_mem_flatMap]
  exact ⟨own lead _, ⟨⟨⟨ofParameters lead, ofHeaders lead⟩, fun t member => ofTraits t member lead⟩,
    ofBodies lead _⟩, fun entry member => ofResponses entry member lead⟩

theorem methodNode (spells : Spells Q) (node : Node) (path : String)
    : Yields (Decode.method node path) fun m => ∀ lead target, Site.All Q (m.sites lead target) := by
  unfold Decode.method
  split
  · exact Yields.ok (spells.blank Method.blank_empty)
  · exact Yields.skip fun f => spells.methodFields f []
  · exact Yields.error _

/-- A trait is declared by what is in a method, or by a path alone, and is blank then. -/
theorem traitDeclaration (spells : Spells Q) (node : Node) (path : String)
    : Yields (traitDeclaration node path) fun t => ∀ lead, Site.All Q (t.sites lead) := by
  unfold Decode.traitDeclaration
  split
  · exact Yields.ok (spells.bareTrait Method.blank_empty)
  · exact Yields.map fun _ _ => spells.bareTrait Method.blank_empty
  · exact Yields.map fun _ _ => spells.bareTrait Method.blank_empty
  · exact Yields.map fun _ _ => spells.bareTrait Method.blank_empty
  · refine Yields.skip fun f => Yields.skip fun usage => Yields.skip fun resourcePath => ?_
    refine Yields.skip fun resourcePathName => Yields.skip fun methodName => ?_
    refine Yields.bind (spells.methodFields f traitKeys) fun method holds => Yields.ok ?_
    exact fun lead => List.forall_mem_cons.mpr ⟨spells.trait lead _, holds lead .trait⟩
  · exact Yields.error _
  · refine Yields.skip fun included => ?_
    split
    · exact Yields.ok (spells.bareTrait Method.blank_empty)
    · exact Yields.error _

theorem methods (spells : Spells Q) (f : Fields node)
    : Yields (methods f) fun methods =>
        ∀ entry ∈ methods, ∀ lead target, Site.All Q (entry.2.sites lead target) :=
  (methods_yields (fun node path => spells.methodNode node path) f).mono
    fun _ table _ member => table.2 _ _ member

/-- By induction on the size of nodes, from the resources below to the one above. -/
theorem resource (spells : Spells Q) (node : Node) (path : String)
    : Yields (resource node path) fun r => ∀ lead, Site.All Q (r.sites lead) := by
  induction size : sizeOf node using Nat.strongRecOn generalizing node path with
  | ind n ih =>
      rw [Decode.resource]
      refine Yields.skip fun f => Yields.skip fun displayName => Yields.skip fun description => ?_
      refine Yields.bind (spells.annotations f) fun annotations own => ?_
      refine Yields.skip fun type => Yields.skip fun securedBy => ?_
      refine Yields.bind (spells.field f "uriParameters") fun uriParameters ofParameters => ?_
      refine Yields.bind (spells.methods f) fun methods ofMethods => ?_
      refine Yields.bind (spells.is f) fun is ofTraits => ?_
      have inside (_ : String) (inner : Inside node) (path : String)
          : Yields (Decode.resource inner.1 path) fun r => ∀ lead, Site.All Q (r.sites lead) :=
        ih _ (size ▸ inner.2) inner.1 path rfl
      refine Yields.bind (collect_yields f isResourceKey inside) fun resources below => ?_
      apply Yields.ok
      intro lead
      rw [Resource.sites_eq, traitSites_eq, resourceSites_eq]
      simp only [Site.All, List.cons_append, List.forall_mem_cons, List.forall_mem_append,
        List.forall_mem_flatMap]
      exact ⟨own lead _, ⟨⟨ofParameters lead, fun t member => ofTraits t member lead⟩,
        fun entry member => ⟨spells.method _, ofMethods entry member lead _⟩⟩,
        fun entry member => below.2 entry.1 entry.2 member lead⟩

/-- The resources of a document are found under the keys that start with a slash. -/
theorem resources (spells : Spells Q) (f : Fields node)
    : Yields (resources f) fun resources => Site.All Q (resourceSites "" resources) := by
  have each := collect_yields f isResourceKey fun _ inner path => spells.resource inner.1 path
  intro resources ok
  rw [resourceSites_eq, Site.All, List.forall_mem_flatMap]
  exact fun entry member => (each resources ok).2 entry.1 entry.2 member ""

/-- A library by itself declares types, traits and annotations. Those that it uses are seen to in
turn. -/
theorem libraryFields (spells : Spells Q) (f : Fields node)
    : Yields (libraryFields node f) fun l => ∀ lead target, Site.All Q (l.ownSites lead target) := by
  intro l ok lead target
  obtain ⟨annotations, types, traits, annotationTypes, -⟩ := libraryFields_parts f l ok
  have ofTypes := (declarations_yields f "types" spells.typeNode _ types).2
  have ofTraits := (declarations_yields f "traits" spells.traitDeclaration _ traits).2
  have ofApplieds :=
    (declarations_yields f "annotationTypes" spells.annotationType _ annotationTypes).2
  simp only [Library.ownSites, Site.All, List.forall_mem_append, List.forall_mem_flatMap,
    List.forall_mem_singleton]
  exact ⟨⟨⟨fun entry member => ofTypes entry.1 entry.2 member lead _,
    fun entry member => ofTraits entry.1 entry.2 member lead⟩,
    fun entry member => ofApplieds entry.1 entry.2 member lead _⟩,
    spells.annotations f _ annotations lead _⟩

/-- Whatever files contain, it is as demanded as well. -/
theorem loadable (spells : Spells Q)
    : Library.Loadable (fun l => ∀ lead target, Site.All Q (l.ownSites lead target))
        fun t => ∀ lead, Site.All Q (t.sites lead) where
  declares := spells.libraryFields
  declaration := spells.traitDeclaration
  reference _ read := by
    intro lead
    have inside := read lead
    rw [Trait.sites_eq] at inside ⊢
    exact List.forall_mem_cons.mpr ⟨spells.trait lead _, (List.forall_mem_cons.mp inside).2⟩
  traits holds entry member lead := by
    have own := holds lead .library
    simp only [Library.ownSites, Site.All, List.forall_mem_append, List.forall_mem_flatMap] at own
    exact own.1.1.2 entry member
  withTraits holds _ all _ _ := by
    intro lead target
    have own := holds lead target
    simp only [Library.ownSites, Site.All, List.forall_mem_append, List.forall_mem_flatMap] at own ⊢
    exact ⟨⟨⟨own.1.1.1, fun entry member => all entry member lead⟩, own.1.2⟩, own.2⟩

end Spells

end Decode

/-- Once the libraries of a document are loaded, it holds at all of its places. -/
theorem Document.Written.sites (spells : Decode.Spells Q) {p : Parser} {d₀ d : Document}
    (written : d₀.Written) (loads : p.Loads d₀ d) {target : Target} {path : List String}
    {l : Library} (reaches : d.library.Reaches path l)
    : Site.All Q (d.sitesIn target path l) := by
  have library := spells.loadable.written written loads
  have others : Site.All Q (resourceSites "" d.resources ++ propertySites "" d.baseUriParameters) := by
    obtain ⟨l, -, rfl⟩ := loads
    cases written with
    | document decoded directory =>
        obtain ⟨f, -, parameters, -, below⟩ := Decode.document_parts _ _ decoded
        exact List.forall_mem_append.mpr
          ⟨spells.resources f _ below, spells.field f _ _ parameters ""⟩
    | library decoded directory => simp [resourceSites, propertySites]
  refine List.forall_mem_append.mpr ⟨library path l reaches _ _, ?_⟩
  cases path with
  | nil => exact others
  | cons => simp

end Raml
