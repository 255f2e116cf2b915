import Raml.Decode.Documents
import Raml.Proofs.References
import Raml.Proofs.Resolution.Lineage
import Raml.Proofs.Outcomes

/-! What decoding leaves to resolution: types that have inherited nothing so far, at any depth, and
tables in which no name is declared twice.
-/

namespace Raml

open Yaml (Node)

namespace Decode

variable {node : Node} {α : Type}

/-- A table of what was read: no key stands twice in it, and all values satisfy `P`. -/
def Table (P : α → Prop) (entries : Keyed α) : Prop :=
  (Keyed.keys entries).Nodup ∧ ∀ key v, (key, v) ∈ entries → P v

theorem Table.nil {P : α → Prop} : Table P [] := ⟨List.nodup_nil, fun _ _ member => nomatch member⟩

/-- What is demanded of a value may depend on its key. -/
theorem collect_keyed {P : String → α → Prop} (f : Fields node) (wanted : String → Bool)
    {read : String → Inside node → String → Except Error α}
    (each : ∀ key inner path, Yields (read key inner path) (P key))
    : Yields (f.collect wanted read) fun entries =>
        (Keyed.keys entries).Nodup ∧ ∀ entry ∈ entries, P entry.1 entry.2 := by
  unfold Fields.collect
  have entries : ∀ entry ∈ f.entries.filter fun entry => wanted entry.1,
      Yields (do return (entry.1, ← read entry.1 entry.2 (fieldPath f.path entry.1)))
        fun (pair : String × α) => P pair.1 pair.2 := by
    intro entry _
    exact Yields.bind (each entry.1 entry.2 _) fun v holds => Yields.ok holds
  refine Yields.bind (Yields.mapM entries) fun pairs all => Yields.ok ⟨?_, ?_⟩
  · exact Keyed.nodup_ofPairs pairs
  · exact fun entry member => all entry (Keyed.mem_of_mem_ofPairs member)

/-- Only what is wanted is collected. -/
theorem collect_wanted (f : Fields node) (wanted : String → Bool)
    {read : String → Inside node → String → Except Error α}
    : Yields (f.collect wanted read) fun entries =>
        ∀ entry ∈ entries, wanted entry.1 = true := by
  unfold Fields.collect
  have entries : ∀ entry ∈ f.entries.filter fun entry => wanted entry.1,
      Yields (do return (entry.1, ← read entry.1 entry.2 (fieldPath f.path entry.1)))
        fun pair : String × α => wanted pair.1 = true :=
    fun entry member => Yields.skip fun v => Yields.ok (List.mem_filter.mp member).2
  refine Yields.bind (Yields.mapM entries) fun pairs all => Yields.ok ?_
  exact fun entry member => all entry (Keyed.mem_of_mem_ofPairs member)

/-- What is collected from fields stands once under each key, and is as it is read. -/
theorem collect_yields {P : α → Prop} (f : Fields node) (wanted : String → Bool)
    {read : String → Inside node → String → Except Error α}
    (each : ∀ key inner path, Yields (read key inner path) P)
    : Yields (f.collect wanted read) (Table P) := fun entries collected =>
  have ⟨unique, all⟩ := collect_keyed (P := fun _ => P) f wanted each entries collected
  ⟨unique, fun _ _ member => all _ member⟩

/-- Entries of a mapping are collected in the same way. -/
theorem each_yields {P : α → Prop} (node : Node) (path : String)
    {read : String → Inside node → String → Except Error α}
    (each : ∀ key inner path, Yields (read key inner path) P)
    : Yields (Decode.each node path read) (Table P) :=
  Yields.skip fun f => collect_yields f _ each

/-- A field that may be missing is read as its node is, or it is missing. -/
theorem optional_yields {P : α → Prop} (f : Fields node) (key : String)
    {read : Node → String → Except Error α}
    (each : ∀ inner : Inside node, ∀ path, Yields (read inner.1 path) P)
    : Yields (f.optional key read) fun found => ∀ a ∈ found, P a := by
  unfold Fields.optional
  cases f.get? key with
  | none => exact Yields.ok nofun
  | some inner =>
      rw [Option.mapM_some]
      refine Yields.map fun a read => ?_
      intro b same
      cases same
      exact each inner _ a read

/-- A field with a default is as its node or as the default. -/
theorem orElse_yields {P : α → Prop} (f : Fields node) (key : String)
    {r : Node → String → Except Error α} {b : α} (h : P b)
    (each : ∀ inner : Inside node, ∀ path, Yields (r inner.1 path) P)
    : Yields (f.orElse key r b) P := by
  refine Yields.map fun found read => ?_
  have known := optional_yields f key each found read
  cases found with
  | none => exact h
  | some a => exact known a rfl

-----------------------------------------------------------------------------------------
-- Types
-----------------------------------------------------------------------------------------

/-- The types of all properties are fresh. -/
abbrev FreshTable : Properties → Prop := Table fun p => p.type.Fresh

/-- A type is given its name last, and what follows from the name with it. -/
theorem fresh_setName {t : TypeNode} (name : String) (unresolved : t.resolved = false)
    (each : ∀ key p, (key, p) ∈ t.properties → p.type.Fresh)
    : (t.setName name).Fresh :=
  TypeNode.fresh_iff.mpr ⟨unresolved, rfl, each⟩

/-- The facets of objects hold the properties that they are given. -/
theorem objectFacets_yields (f : Fields node) (properties : Properties)
    : Yields (objectFacets f properties) fun object => object.properties = properties := by
  refine Yields.skip fun minProperties => Yields.skip fun maxProperties => ?_
  refine Yields.skip fun additionalProperties => Yields.skip fun discriminator => ?_
  exact Yields.skip fun discriminatorValue => Yields.ok rfl

/-- A type is fresh when it is put together, if its properties are. -/
theorem typeWithProperties_fresh (f : Fields node) (name : String) (declaration : Declaration)
    {properties : Properties} (each : ∀ key p, (key, p) ∈ properties → p.type.Fresh)
    : Yields (typeWithProperties f name declaration properties) TypeNode.Fresh := by
  refine Yields.bind (objectFacets_yields f properties) fun object same => ?_
  refine Yields.skip fun values => Yields.skip fun pattern => Yields.skip fun array => ?_
  refine Yields.skip fun fileTypes => Yields.skip fun minLength => Yields.skip fun maxLength => ?_
  have own : ∀ key p, (key, p) ∈ object.properties → p.type.Fresh := same ▸ each
  apply Yields.ok
  -- Under whatever name, the bounds of the length go to one group or another.
  generalize (if name.isEmpty && !properties.isEmpty then "object" else name) = called
  split
  · exact fresh_setName called rfl own
  · exact fresh_setName called rfl own

/-- By induction, the types of properties are decoded first. -/
theorem typeFields_fresh (f : Fields node)
    (inside : ∀ inner : Inside node, ∀ path, Yields (properties inner.1 path) FreshTable)
    : Yields (typeFields node f) TypeNode.Fresh := by
  rw [typeFields]
  refine Yields.skip fun name => Yields.skip fun declaration => ?_
  split
  · exact Yields.bind (inside _ _) fun properties table => typeWithProperties_fresh f _ _ table.2
  · exact typeWithProperties_fresh f _ _ fun _ _ member => absurd member List.not_mem_nil

/-- A name alone makes a fresh type. -/
theorem fresh_of_text (node : Node) (path : String)
    : Yields ((text node path).map TypeNode.ofName) TypeNode.Fresh :=
  Yields.map fun name _ => TypeNode.fresh_ofName name

theorem typeNode_fresh_of_inside (node : Node) (path : String)
    (inside : ∀ inner : Inside node, ∀ path, Yields (properties inner.1 path) FreshTable)
    : Yields (typeNode node path) TypeNode.Fresh := by
  cases node with
  | null =>
      rw [typeNode]
      exact Yields.ok (TypeNode.fresh_ofName "")
  | map entries =>
      rw [typeNode]
      exact Yields.skip fun f => typeFields_fresh f inside
  | bool b =>
      rw [typeNode]
      exact fresh_of_text _ _
  | num n =>
      rw [typeNode]
      exact fresh_of_text _ _
  | str s =>
      rw [typeNode]
      exact fresh_of_text _ _
  | seq nodes => simpa [typeNode] using Yields.error _
  | tagged tag content => simpa [typeNode] using Yields.error _

theorem property_fresh_of_inside (name : String) (node : Node) (path : String)
    (inside : ∀ inner : Inside node, ∀ path, Yields (properties inner.1 path) FreshTable)
    : Yields (property name node path) fun p => p.type.Fresh := by
  unfold property
  split
  · refine Yields.skip fun f => Yields.skip fun required => ?_
    exact Yields.bind (typeFields_fresh f inside) fun type fresh => Yields.ok fresh
  · exact Yields.bind (typeNode_fresh_of_inside node path inside) fun type fresh => Yields.ok fresh

/-- Nothing that is read of a node has inherited anything: by induction on the size of nodes, from
the properties inside a node to the properties in it. -/
theorem properties_fresh (node : Node) (path : String)
    : Yields (properties node path) FreshTable := by
  induction size : sizeOf node using Nat.strongRecOn generalizing node path with
  | ind n ih =>
      rw [properties]
      refine each_yields node path fun key inner path => ?_
      refine property_fresh_of_inside key inner.1 path fun deeper path => ?_
      exact ih _ (size ▸ Nat.lt_trans deeper.2 inner.2) deeper.1 path rfl

/-- Every type that is decoded is fresh, by induction on the size of nodes. -/
theorem typeNode_fresh (node : Node) (path : String)
    : Yields (typeNode node path) TypeNode.Fresh :=
  typeNode_fresh_of_inside node path fun inner path => properties_fresh inner.1 path

-----------------------------------------------------------------------------------------
-- What is read of fields
-----------------------------------------------------------------------------------------

/-- A method is made of its fields, and no other key is expected. -/
theorem methodFields_parts (f : Fields node) (ownKeys : List String)
    : Yields (methodFields f ownKeys) fun m => f.orElse "is" traitUses [] = .ok m.is
        ∧ m.unexpected = f.unknownKeys (ownKeys ++ methodKeys) := by
  unfold methodFields
  refine Yields.skip fun displayName => Yields.skip fun description => ?_
  refine Yields.skip fun annotations => Yields.skip fun queryParameters => ?_
  refine Yields.skip fun headers => Yields.skip fun queryString => Yields.skip fun protocols => ?_
  refine Yields.skip fun securedBy => Yields.skip fun responses => Yields.skip fun bodies => ?_
  exact Yields.keep fun is uses => Yields.ok ⟨uses, rfl⟩

/-- Methods are read in an order of their own, each at most once. -/
theorem methods_yields {P : Method → Prop} (each : ∀ node path, Yields (method node path) P)
    (f : Fields node)
    : Yields (methods f) (Table P) := by
  have found (names : List String)
      : Yields (names.mapM fun name => do return (← f.optional name method).map (name, ·))
          fun found : List (Option (String × Method)) =>
            (Keyed.keys (found.filterMap id)).Sublist names
              ∧ ∀ entry ∈ found.filterMap id, P entry.2 := by
    induction names with
    | nil => exact Yields.ok ⟨List.Sublist.refl _, nofun⟩
    | cons name names ih =>
        rw [List.mapM_cons]
        have first : Yields (do return (← f.optional name method).map (name, ·))
            fun e? : Option (String × Method) => ∀ entry ∈ e?, entry.1 = name ∧ P entry.2 := by
          have read := optional_yields f name fun inner path => each inner.1 path
          refine Yields.bind read fun m? holds => Yields.ok ?_
          rintro _ member
          obtain ⟨m, same, rfl⟩ := Option.map_eq_some_iff.mp member
          exact ⟨rfl, holds m same⟩
        refine Yields.bind first fun e? own => ?_
        refine Yields.bind ih fun rest others => Yields.ok ?_
        obtain ⟨sublist, each⟩ := others
        cases e? with
        | none => exact ⟨sublist.cons name, each⟩
        | some entry =>
            obtain ⟨rfl, holds⟩ := own entry rfl
            exact ⟨sublist.cons_cons _, List.forall_mem_cons.mpr ⟨holds, each⟩⟩
  refine Yields.bind (found Resource.methodNames) fun found known => Yields.ok ?_
  exact ⟨known.1.nodup (by decide), fun _ _ member => known.2 _ member⟩

/-- A resource is made of its fields. -/
theorem resource_parts (node : Node) (path : String)
    : Yields (resource node path) fun r => ∃ f, fields node path = .ok f
        ∧ methods f = .ok r.methods ∧ f.orElse "is" traitUses [] = .ok r.is
        ∧ resources f = .ok r.resources := by
  rw [resource]
  refine Yields.keep fun f ofNode => Yields.skip fun displayName => ?_
  refine Yields.skip fun description => Yields.skip fun annotations => Yields.skip fun type => ?_
  refine Yields.skip fun securedBy => Yields.skip fun uriParameters => ?_
  refine Yields.keep fun methods own => Yields.keep fun is uses => ?_
  exact Yields.keep fun resources below => Yields.ok ⟨f, ofNode, own, uses, below⟩

/-- What a library declares is in its fields. -/
theorem libraryFields_parts (f : Fields node)
    : Yields (libraryFields node f) fun l =>
        f.annotations = .ok l.annotations ∧ declarations f "types" typeNode = .ok l.types
          ∧ declarations f "traits" traitDeclaration = .ok l.traits
          ∧ declarations f "annotationTypes" annotationType = .ok l.annotationTypes
          ∧ l.location = none := by
  rw [libraryFields]
  refine Yields.skip fun usage => Yields.skip fun schemas => Yields.skip fun resourceTypes => ?_
  refine Yields.skip fun securitySchemes => Yields.keep fun annotations applied => ?_
  refine Yields.keep fun types ofTypes => Yields.keep fun traits ofTraits => ?_
  refine Yields.keep fun annotationTypes ofApplieds => ?_
  split
  · exact Yields.skip fun uses => Yields.ok ⟨applied, ofTypes, ofTraits, ofApplieds, rfl⟩
  · exact Yields.ok ⟨applied, ofTypes, ofTraits, ofApplieds, rfl⟩

/-- A document is made of its fields. -/
theorem document_parts (node : Node)
    : Yields (document node) fun d => ∃ f, fields node "" = .ok f
        ∧ f.properties "baseUriParameters" = .ok d.baseUriParameters
        ∧ libraryFields node f = .ok d.library ∧ resources f = .ok d.resources := by
  unfold document
  refine Yields.keep fun f ofNode => Yields.skip fun title => Yields.skip fun description => ?_
  refine Yields.skip fun version => Yields.skip fun baseUri => ?_
  refine Yields.keep fun baseUriParameters parameters => Yields.skip fun protocols => ?_
  refine Yields.skip fun mediaType => Yields.skip fun securedBy => ?_
  refine Yields.skip fun documentation => Yields.keep fun library fields => ?_
  exact Yields.keep fun resources below => Yields.ok ⟨f, ofNode, parameters, fields, below⟩

-----------------------------------------------------------------------------------------
-- Libraries
-----------------------------------------------------------------------------------------

/-- What resolution may rely on in a library and in those within it. -/
def Ready (l : Library) : Prop :=
  l.FreshTypes ∧ ∀ m, Library.Within m l → (Keyed.keys m.types).Nodup

/-- A library is ready if its own types are and the libraries in it are. -/
theorem ready_of_uses {l : Library} (types : Table TypeNode.Fresh l.types)
    (uses : ∀ name used, (name, Use.loaded used) ∈ l.uses → Ready used)
    : Ready l := by
  refine ⟨fun m inside name t found => ?_, fun m inside => ?_⟩
  · cases inside with
    | self => exact types.2 name t (Keyed.mem_of_get? found)
    | used member inside => exact (uses _ _ member).1 m inside name t found
  · cases inside with
    | self => exact types.1
    | used member inside => exact (uses _ _ member).2 m inside

/-- A library that is used by its path has yet to be decoded. -/
def ReadyUse (use : Use) : Prop := ∀ l, use = .loaded l → Ready l

/-- A table of declarations is collected from a field, or it is empty. -/
theorem declarations_yields {P : α → Prop} (f : Fields node) (key : String)
    {read : Node → String → Except Error α} (each : ∀ node path, Yields (read node path) P)
    : Yields (declarations f key read) (Table P) :=
  orElse_yields f key Table.nil fun inner path =>
    each_yields inner.1 path fun _ inner path => each inner.1 path

/-- By induction, libraries that are used are decoded first. -/
theorem libraryFields_ready (f : Fields node)
    (inside : ∀ inner : Inside node, ∀ path, Yields (uses inner.1 path) (Table ReadyUse))
    : Yields (libraryFields node f) Ready := by
  rw [libraryFields]
  refine Yields.skip fun usage => Yields.skip fun schemas => Yields.skip fun resourceTypes => ?_
  refine Yields.skip fun securitySchemes => Yields.skip fun annotations => ?_
  refine Yields.bind (declarations_yields f "types" typeNode_fresh) fun types fresh => ?_
  refine Yields.skip fun traits => Yields.skip fun annotationTypes => ?_
  have ready {uses : Uses} (table : Table ReadyUse uses) (name : String) (used : Library)
      (member : (name, Use.loaded used) ∈ uses) : Ready used :=
    table.2 name _ member used rfl
  split
  · refine Yields.bind (inside _ _) fun uses table => ?_
    exact Yields.ok (ready_of_uses fresh (ready table))
  · exact Yields.ok (ready_of_uses fresh (ready Table.nil))

theorem use_ready_of_inside (node : Node) (path : String)
    (inside : ∀ inner : Inside node, ∀ path, Yields (uses inner.1 path) (Table ReadyUse))
    : Yields (use node path) ReadyUse := by
  have external (path : String) : ReadyUse (.external path) := fun _ same => nomatch same
  unfold use
  split
  · exact Yields.map fun path _ => external path
  · exact Yields.map fun path _ => external path
  · exact Yields.map fun path _ => external path
  · refine Yields.skip fun f => Yields.bind (libraryFields_ready f inside) fun l ready => ?_
    apply Yields.ok
    rintro _ ⟨⟩
    exact ready
  · refine Yields.skip fun included => ?_
    split
    · exact Yields.ok (external _)
    · exact Yields.error _
  · exact Yields.error _

/-- By induction on the size of nodes. -/
theorem uses_ready (node : Node) (path : String) : Yields (uses node path) (Table ReadyUse) := by
  induction size : sizeOf node using Nat.strongRecOn generalizing node path with
  | ind n ih =>
      rw [uses]
      refine each_yields node path fun key inner path => ?_
      refine use_ready_of_inside inner.1 path fun deeper path => ?_
      exact ih _ (size ▸ Nat.lt_trans deeper.2 inner.2) deeper.1 path rfl

/-- In a library that has been decoded, and in those written within it, no type has inherited
anything and no name is declared twice. -/
theorem library_ready {node : Node} {path : String} {l : Library} (h : library node path = .ok l)
    : Ready l := by
  have ready : Yields (library node path) Ready :=
    Yields.skip fun f => libraryFields_ready f fun inner path => uses_ready inner.1 path
  exact ready l h

/-- The library of a document is decoded like any other. -/
theorem document_ready {node : Node} {d : Document} (h : document node = .ok d)
    : Ready d.library := by
  obtain ⟨f, -, -, fields, -⟩ := document_parts node d h
  exact libraryFields_ready f (fun inner path => uses_ready inner.1 path) d.library fields

end Decode

end Raml
