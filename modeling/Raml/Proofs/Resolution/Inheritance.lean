import Raml.Proofs.Resolution.Lineage

/-! What a type inherits, said without resolution: each part comes from the nearest type in its
lineage that sets it.

Where no type refers back to itself, resolution gives every declared type just that, and so it does
with the types of properties at every depth.
-/

namespace Raml

open Resolver

namespace Library

/-- The library as its annotations are linked in it: those that it uses are resolved. -/
def scope (l : Library) : Library :=
  match resolveUses l.uses with
  | .ok uses => l.withUses uses
  | .error _ => l

/-- The libraries of a scope are those of the library when it is resolved. -/
theorem scope_eq {l r : Library} (h : resolveUses l.uses = .ok r.uses)
    : l.scope = l.withUses r.uses := by
  rw [scope, h]

end Library

namespace Library.Place

/-- The nearest place in a lineage whose type sets something, or else the end of it. -/
def nearest (unset : TypeNode → Bool) (p : Place) : List Place → Place
  | [] => p
  | q :: bases => if unset p.type then nearest unset q bases else p

/-- An annotation at a place, linked to the declaration that is seen from there. -/
def annotation? (p : Place) (key : String) : Option Annotation :=
  (Keyed.get? p.type.declaration.annotations key).map (·.link p.library.scope)

/-- What a type keeps of its own when it inherits: its name and its examples. -/
structure Keeps (p : Place) (t : TypeNode) : Prop where
  typeName : t.typeName = p.type.typeName
  example? : t.declaration.example? = p.type.declaration.example?
  examples : t.declaration.examples = p.type.declaration.examples
  baseName : t.baseName = p.type.baseName
  isArray : t.isArray = p.type.isArray

/-- What a type takes from its lineage: each part comes from the nearest place that sets it. -/
structure Takes (p : Place) (bases : List Place) (t : TypeNode) : Prop where
  kind : t.kind = .ofName (bases.getLastD p).type.baseName
  scalar : t.scalar = (p.nearest (·.scalar.isEmpty) bases).type.scalar
  string : t.string = (p.nearest (·.string.isEmpty) bases).type.string
  file : t.file = (p.nearest (·.file.isEmpty) bases).type.file
  /-- Only arrays look further for the facets of arrays. -/
  array : t.array = (p.nearest (fun t => t.isArray && t.array.isEmpty) bases).type.array
  default? : t.declaration.default?
    = (p.nearest (·.declaration.default?.isNone) bases).type.declaration.default?
  schema : t.declaration.schema
    = (p.nearest (·.declaration.schema.isNone) bases).type.declaration.schema
  displayName : t.declaration.displayName
    = (p.nearest (·.declaration.displayName.isEmpty) bases).type.declaration.displayName
  description : t.declaration.description
    = (p.nearest (·.declaration.description.isEmpty) bases).type.declaration.description
  facets : t.declaration.facets
    = (p.nearest (·.declaration.facets.isNone) bases).type.declaration.facets
  xml : t.declaration.xml = (p.nearest (·.declaration.xml.isNone) bases).type.declaration.xml
  annotations : ∀ key, Keyed.get? t.declaration.annotations key
    = (p :: bases).findSome? fun q => q.annotation? key

/-- The type of a place before it inherits, with its annotations linked. -/
def linked (p : Place) : TypeNode := p.type.linkAnnotations p.library.scope

/-- Whatever a type does not set comes from where its base has it from. -/
theorem nearest_cons {α : Type} (get : TypeNode → α) (unset : TypeNode → Bool) {p q : Place}
    {bases : List Place} {value : α} (h : value = get (q.nearest unset bases).type)
    : (if unset p.type then value else get p.type)
      = get (p.nearest unset (q :: bases)).type := by
  rw [nearest]
  split
  · exact h
  · rfl

theorem or_eq_ite {α : Type} (a b : Option α) : a.or b = if a.isNone then b else a := by
  cases a <;> rfl

/-- An annotation is linked under its key. -/
theorem get?_linked (p : Place) (key : String)
    : Keyed.get? (Keyed.mapValues (·.link p.library.scope) p.type.declaration.annotations) key
      = p.annotation? key :=
  Keyed.get?_mapValues _ _ _

/-- Whatever a type inherits, it keeps what is its own. -/
theorem linked_keeps (p : Place) (base? : Option TypeNode) (properties : Properties)
    : p.Keeps (p.linked.filled base? properties) := by
  rw [linked, TypeNode.linkAnnotations_eq]
  cases base? with
  | none => exact ⟨rfl, rfl, rfl, rfl, rfl⟩
  | some base =>
      rw [TypeNode.filled_some]
      exact ⟨rfl, rfl, rfl, rfl, rfl⟩

/-- A type without a base takes all from itself. -/
theorem takes_root {p : Place} (fresh : p.type.Fresh) (properties : Properties)
    : p.Takes [] (p.linked.filled none properties) := by
  rw [linked, TypeNode.linkAnnotations_eq, TypeNode.filled_none]
  refine ⟨fresh.kind_eq, rfl, rfl, rfl, rfl, rfl, rfl, rfl, rfl, rfl, rfl, fun key => ?_⟩
  rw [p.get?_linked, List.findSome?_cons, List.findSome?_nil]
  cases p.annotation? key <;> rfl

/-- A type takes from itself what it sets, and else what its base has taken. -/
theorem takes_base {p q : Place} {bases : List Place} {base : TypeNode} (h : q.Takes bases base)
    (properties : Properties)
    : p.Takes (q :: bases) (p.linked.filled (some base) properties) := by
  rw [linked, TypeNode.linkAnnotations_eq, TypeNode.filled_some]
  constructor
  case kind =>
    rw [List.getLastD_cons]
    exact h.kind
  case scalar => exact nearest_cons (·.scalar) (·.scalar.isEmpty) h.scalar
  case string => exact nearest_cons (·.string) (·.string.isEmpty) h.string
  case file => exact nearest_cons (·.file) (·.file.isEmpty) h.file
  case array => exact nearest_cons (·.array) (fun t => t.isArray && t.array.isEmpty) h.array
  case displayName =>
    exact nearest_cons (·.declaration.displayName) (·.declaration.displayName.isEmpty) h.displayName
  case description =>
    exact nearest_cons (·.declaration.description) (·.declaration.description.isEmpty) h.description
  case default? =>
    exact (or_eq_ite _ _).trans
      (nearest_cons (·.declaration.default?) (·.declaration.default?.isNone) h.default?)
  case schema =>
    exact (or_eq_ite _ _).trans
      (nearest_cons (·.declaration.schema) (·.declaration.schema.isNone) h.schema)
  case facets =>
    exact (or_eq_ite _ _).trans
      (nearest_cons (·.declaration.facets) (·.declaration.facets.isNone) h.facets)
  case xml =>
    exact (or_eq_ite _ _).trans (nearest_cons (·.declaration.xml) (·.declaration.xml.isNone) h.xml)
  case annotations =>
    intro key
    refine (Keyed.get?_addMissing _ _ key).trans ?_
    rw [p.get?_linked, h.annotations]
    cases own : p.annotation? key <;> simp [List.findSome?_cons, own]

mutual

/-- What a type comes to at a place: it keeps and takes what it should, and it is an object as the
nearest type in its lineage is one, with properties that inherit where they were declared. -/
inductive Inherits : Place → TypeNode → Prop where
  | intro {p : Place} {bases : List Place} {t : TypeNode} (lineage : p.Lineage bases)
      (keeps : p.Keeps t) (takes : p.Takes bases t)
      (object : t.object = { (p.nearest (·.object.isEmpty) bases).type.object with
        properties := t.properties })
      (properties : PropertiesInherit (p.nearest (·.object.isEmpty) bases).library
        (p.nearest (·.object.isEmpty) bases).type.properties t.properties)
      : Inherits p t

/-- What properties come to that are declared in a library: their types inherit, and nothing else
changes. -/
inductive PropertiesInherit : Library → Properties → Properties → Prop where
  | nil {l : Library} : PropertiesInherit l [] []
  | cons {l : Library} {key : String} {p : Property} {type : TypeNode}
      {properties rest : Properties} (first : Inherits ⟨l, key, p.type⟩ type)
      (others : PropertiesInherit l properties rest)
      : PropertiesInherit l ((key, p) :: properties) ((key, p.withType type) :: rest)

end

/-- Properties inherit if each of their types does. -/
theorem propertiesInherit_mapTypes {l : Library} {f : TypeNode → TypeNode} {properties : Properties}
    (each : ∀ key p, (key, p) ∈ properties → Inherits ⟨l, key, p.type⟩ (f p.type))
    : PropertiesInherit l properties (properties.mapTypes f) := by
  induction properties with
  | nil => exact .nil
  | cons entry properties ih =>
      obtain ⟨key, p⟩ := entry
      exact .cons (each key p List.mem_cons_self)
        (ih fun key p member => each key p (List.mem_cons_of_mem _ member))

/-- A type is the object that its base is, unless it says more of itself as an object. -/
theorem object_linked_filled (p : Place) (base : TypeNode) (properties : Properties)
    : (p.linked.filled (some base) properties).object
      = if p.type.object.isEmpty then base.object else { p.type.object with properties } := by
  have same : p.linked.object.isEmpty = p.type.object.isEmpty := by
    rw [linked, TypeNode.linkAnnotations_eq]
    simp [ObjectFacets.isEmpty, TypeNode.properties, Properties.mapTypes, Keyed.mapValues]
  rw [TypeNode.filled_some, same, linked, TypeNode.linkAnnotations_eq]

/-- A type inherits what it should at its place, once its base and the types of its properties do.
-/
theorem inherits_filled {p : Place} (fresh : p.type.Fresh) {find : String → Option TypeNode}
    (base : ∀ name, p.type.base? = some name →
      ∃ q base, p.library.place? name = some q ∧ find name = some base ∧ q.Inherits base)
    {properties : Properties} (each : PropertiesInherit p.library p.type.properties properties)
    : p.Inherits (p.linked.filled (p.type.base?.bind find) properties) := by
  cases base? : p.type.base? with
  | none =>
      refine .intro (.root base?) (p.linked_keeps _ _) (takes_root fresh _) ?_ each
      rw [Option.bind_none, linked, TypeNode.linkAnnotations_eq]
      rfl
  | some name =>
      obtain ⟨q, base, found, filled, inherits⟩ := base name base?
      obtain ⟨lineage, -, takes, object, properties'⟩ := inherits
      rw [Option.bind_some, filled]
      have whole := p.object_linked_filled base properties
      have part : (p.linked.filled (some base) properties).properties = _ :=
        congrArg ObjectFacets.properties whole
      refine .intro (.base base? found lineage) (p.linked_keeps _ _) (takes_base takes _) ?_ ?_
      · rw [whole, part, nearest]
        cases p.type.object.isEmpty with
        | true => exact object
        | false => rfl
      · rw [part, nearest]
        cases p.type.object.isEmpty with
        | true => exact properties'
        | false => exact each

/-- A type inherits what it should if all that it refers to does. -/
theorem inherits_fillFrom {l : Library} {find : String → Option TypeNode} (t : TypeNode)
    (fresh : t.Fresh) (name : String)
    (known : ∀ other ∈ t.references, ∃ q base, l.place? other = some q ∧ find other = some base
      ∧ q.Inherits base)
    : Place.Inherits ⟨l, name, t⟩ ((t.linkAnnotations l.scope).fillFrom find) := by
  induction t using TypeNode.induct generalizing name with
  | step t ih =>
      have unresolved := fresh.unresolved
      rw [TypeNode.fillFrom_eq (by rwa [TypeNode.resolved_linkAnnotations]),
        TypeNode.base?_linkAnnotations, TypeNode.properties_linkAnnotations]
      refine inherits_filled (p := ⟨l, name, t⟩) fresh
        (fun other base? => known other (TypeNode.mem_references_of_base? base?)) ?_
      -- Annotations are linked at all depths before anything is filled.
      have twice : (t.properties.mapTypes (TypeNode.linkAnnotations l.scope)).mapTypes
          (TypeNode.fillFrom find)
          = t.properties.mapTypes fun t => (t.linkAnnotations l.scope).fillFrom find := by
        simp [Properties.mapTypes, Keyed.mapValues, Property.withType, Function.comp_def]
      rw [twice]
      refine propertiesInherit_mapTypes fun key p member => ?_
      refine ih key p member (fresh.property member) key fun other mentioned => ?_
      refine known other ((TypeNode.mem_references unresolved).mpr ?_)
      exact Or.inr ⟨key, p, member, mentioned⟩

end Library.Place

-----------------------------------------------------------------------------------------
-- Libraries without recursion
-----------------------------------------------------------------------------------------

namespace Library

open Relation (TransGen)

variable {l r : Library}

/-- No type of the library refers back to itself, neither by bases nor through properties. -/
def Acyclic (l : Library) : Prop := ∀ name, ¬TransGen (Refers l.types) name name

/-- Where references do not lead back, bases do not. -/
theorem Acyclic.not_onBaseCycle (h : l.Acyclic) (name : String) : ¬OnBaseCycle l.types name :=
  fun cyclic => h name (TransGen.mono (fun _ _ => BaseLink.refers) _ _ cyclic)

/-- Without recursion, nothing that a type refers to is under resolution when it is reached. -/
theorem Acyclic.not_under (h : l.Acyclic) {name other : String} {chain : List String}
    (path : (chain ++ [name]).IsChain (Refers l.types)) (refers : Refers l.types name other)
    : other ∉ chain ++ [name] := by
  intro member
  rcases List.mem_append.mp member with under | same
  · exact h other ((reaches_of_path path under).tail refers)
  · rw [List.mem_singleton.mp same] at refers
    exact h name (.single refers)

/-- In a library without recursion, every declared type inherits what it should, if the types of
other libraries do. -/
theorem inherits_of_acyclic (ok : l.resolve = .ok r) (acyclic : l.Acyclic)
    (fresh : ∀ name t, own? l.types name = some t → t.Fresh)
    (outer : ∀ name q t, isQualified name = true → l.place? name = some q → q.Holds t
      → q.Inherits t)
    {name : String} {t : TypeNode} (found : own? l.types name = some t)
    : ∃ t', Keyed.get? r.types name = some t' ∧ Place.Inherits ⟨l, name, t⟩ t' := by
  refine entry_induct ok (P := fun name => ∀ t, own? l.types name = some t
    → ∃ t', Keyed.get? r.types name = some t' ∧ Place.Inherits ⟨l, name, t⟩ t')
    (fun name t found before t' found' => ?_) found t found
  cases found.symm.trans found'
  have reached : ∀ other ∈ t.references, other ∉ trail l.types name ++ [name] :=
    fun other mentioned => acyclic.not_under (trail_path ok found) ⟨t, found, mentioned⟩
  have entry := entry_of_own? ok found
  rw [← scope_eq (resolution_of_resolve ok).uses] at entry
  refine ⟨_, entry, Place.inherits_fillFrom t (fresh name t found) name fun other mentioned => ?_⟩
  have isFound := (Resolution.defined ok).1.types name other ⟨t, found, mentioned⟩
  rw [getType?_eq, Option.isSome_map] at isFound
  obtain ⟨q, place⟩ := Option.isSome_iff_exists.mp isFound
  obtain ⟨base, getType, holds⟩ := holds_of_place? ok place
  refine ⟨q, base, place, by rw [outside, if_neg (reached other mentioned), getType], ?_⟩
  cases qualified : isQualified other with
  | true => exact outer other q base qualified place holds
  | false =>
      rw [place?_of_unqualified l qualified] at place
      obtain ⟨type, declared, rfl⟩ := Option.map_eq_some_iff.mp place
      have own := own?_eq_some.mpr ⟨qualified, declared⟩
      obtain ⟨t', entry', inherits⟩ :=
        before other mentioned qualified (reached other mentioned) type own
      rw [r.getType?_of_unqualified qualified] at getType
      cases getType.symm.trans entry'
      exact inherits

/-- No declared type has a point in its name. -/
def Undotted (l : Library) : Prop := ∀ name ∈ Keyed.keys l.types, isQualified name = false

/-- Without points in names, each declaration is the library's own. -/
theorem Undotted.own? (h : l.Undotted) {name : String} {t : TypeNode}
    (found : Keyed.get? l.types name = some t)
    : Resolver.own? l.types name = some t :=
  own?_eq_some.mpr ⟨h name (Keyed.get?_isSome_iff.mp (by simp [found])), found⟩

/-- By induction on libraries within: a base in another one has inherited there. -/
theorem inherits_within (fresh : l.FreshTypes)
    (plain : ∀ m, Within m l → m.Undotted ∧ m.Acyclic)
    : ∀ m, Within m l → ∀ r, m.resolve = .ok r → ∀ name t, Keyed.get? m.types name = some t
      → ∃ t', Keyed.get? r.types name = some t' ∧ Place.Inherits ⟨m, name, t⟩ t' := by
  induction l using induct with
  | step l ih =>
      have below : ∀ key used, (key, Use.loaded used) ∈ l.uses → ∀ m, Within m used
          → ∀ r, m.resolve = .ok r → ∀ name t, Keyed.get? m.types name = some t
          → ∃ t', Keyed.get? r.types name = some t' ∧ Place.Inherits ⟨m, name, t⟩ t' :=
        fun key used member => ih key used member (fun m inside => fresh m (.used member inside))
          fun m inside => plain m (.used member inside)
      intro m inside r ok name t found
      cases inside with
      | used member inside => exact below _ _ member m inside r ok name t found
      | self =>
          refine inherits_of_acyclic ok (plain l (.self l)).2
            (fun name t own => fresh l (.self l) name t (own?_eq_some.mp own).2)
            ?_ ((plain l (.self l)).1.own? found)
          rintro other q t' qualified place ⟨r', ok', entry⟩
          obtain ⟨key, used, member, inside⟩ := within_used_of_place? qualified place
          obtain ⟨t'', entry', inherits⟩ := below key used member q.library inside r' ok' q.name
            q.type (declared_of_place? place).2
          cases entry.symm.trans entry'
          exact inherits

/-- Where names are defined and nothing refers back to itself, resolution succeeds, and every
declared type comes to what it inherits from its lineage, at every depth. Names and order stay the
same. -/
theorem resolve_inherits_of_acyclic (l : Library) (fresh : l.FreshTypes)
    (plain : ∀ m, Within m l → m.Undotted ∧ m.Acyclic) (defined : ∀ m, Within m l → m.Defined)
    : ∃ r, l.resolve = .ok r ∧ Keyed.keys r.types = Keyed.keys l.types
        ∧ ∀ name t, Keyed.get? l.types name = some t
          → ∃ t', Keyed.get? r.types name = some t' ∧ Place.Inherits ⟨l, name, t⟩ t' := by
  obtain ⟨r, ok⟩ := l.resolve_iff.mpr fun m inside =>
    ⟨defined m inside, (plain m inside).2.not_onBaseCycle⟩
  exact ⟨r, ok, (resolution_of_resolve ok).keys_eq, inherits_within fresh plain l (.self l) r ok⟩

-----------------------------------------------------------------------------------------
-- A library that uses another one
-----------------------------------------------------------------------------------------

/-- Nothing refers back to itself where every type ranks above those that it refers to. -/
theorem acyclic_of_rank (rank : String → Nat)
    (lower : ∀ name other, Refers l.types name other → rank other < rank name)
    : l.Acyclic := by
  have reached : ∀ {name other}, TransGen (Refers l.types) name other → rank other < rank name := by
    intro name other reaches
    induction reaches with
    | single step => exact lower _ _ step
    | tail _ step ih => exact (lower _ _ step).trans ih
  exact fun name cyclic => Nat.lt_irrefl _ (reached cyclic)

/-- A word is a string that is not empty. -/
def words : Library :=
  { empty with types := [("word", { TypeNode.ofName "string" with string := { minLength := 1 } })] }

/-- An entry has a term, which is a word of the other library. -/
def glossary : Library :=
  { empty with
    types := [
      ("entry", (TypeNode.ofName "object").withProperties [("term", .ofName "term" "term")]),
      ("term", .ofName "words.word")]
    uses := [("words", .loaded words)] }

/-- The glossary uses one library, and that uses none. -/
theorem within_glossary {m : Library} (h : Within m glossary) : m = glossary ∨ m = words := by
  cases h with
  | self => exact Or.inl rfl
  | used member inside =>
      cases List.mem_singleton.mp member
      cases inside with
      | self => exact Or.inr rfl
      | used member _ => cases member

/-- The glossary declares an object and the type of its property, whose base is in the other
library. -/
theorem types_glossary {name : String} {t : TypeNode} (h : Keyed.get? glossary.types name = some t)
    : (name = "entry"
        ∧ t = (TypeNode.ofName "object").withProperties [("term", .ofName "term" "term")])
      ∨ (name = "term" ∧ t = .ofName "words.word") := by
  have member := Keyed.mem_of_get? h
  simpa [glossary] using member

/-- The other library declares a string. -/
theorem types_words {name : String} {t : TypeNode} (h : Keyed.get? words.types name = some t)
    : name = "word" ∧ t = { TypeNode.ofName "string" with string := { minLength := 1 } } := by
  have member := Keyed.mem_of_get? h
  simpa [words] using member

/-- Nothing in the glossary has inherited yet. -/
theorem freshTypes_glossary : glossary.FreshTypes := by
  intro m inside name t found
  rcases within_glossary inside with rfl | rfl
  · rcases types_glossary found with ⟨-, rfl⟩ | ⟨-, rfl⟩
    · exact TypeNode.fresh_withProperty _ _ _
    · exact TypeNode.fresh_ofName _
  · obtain ⟨-, rfl⟩ := types_words found
    exact TypeNode.fresh_iff.mpr ⟨rfl, rfl, fun _ _ member => nomatch member⟩

/-- The entry refers to its term, and the term to its base. -/
theorem refers_glossary {name other : String} (h : Refers glossary.types name other)
    : (name = "entry" ∧ other = "term") ∨ (name = "term" ∧ other = "words.word") := by
  obtain ⟨t, found, mentioned⟩ := h
  have first : ((TypeNode.ofName "object").withProperties
      [("term", .ofName "term" "term")]).references = ["term"] := by rfl
  have second : (TypeNode.ofName "words.word").references = ["words.word"] := by rfl
  rcases types_glossary (own?_eq_some.mp found).2 with ⟨rfl, rfl⟩ | ⟨rfl, rfl⟩
  · simpa [first] using mentioned
  · simpa [second] using mentioned

/-- The word refers to nothing. -/
theorem not_refers_words {name other : String} : ¬Refers words.types name other := by
  rintro ⟨t, found, mentioned⟩
  have none : ({ TypeNode.ofName "string" with string := { minLength := 1 } }
      : TypeNode).references = [] := by rfl
  obtain ⟨-, rfl⟩ := types_words (own?_eq_some.mp found).2
  simp [none] at mentioned

/-- In neither of the libraries references lead back. -/
theorem plain_glossary : ∀ m, Within m glossary → m.Undotted ∧ m.Acyclic := by
  intro m inside
  let rank (name : String) : Nat := if name = "entry" then 2 else if name = "term" then 1 else 0
  rcases within_glossary inside with rfl | rfl
  · refine ⟨by unfold Undotted; decide, acyclic_of_rank rank fun name other refers => ?_⟩
    rcases refers_glossary refers with ⟨rfl, rfl⟩ | ⟨rfl, rfl⟩ <;> decide
  · exact ⟨by unfold Undotted; decide,
      acyclic_of_rank rank fun _ _ refers => absurd refers not_refers_words⟩

/-- All references in the libraries are declared. -/
theorem defined_glossary : ∀ m, Within m glossary → m.Defined := by
  intro m inside
  rcases within_glossary inside with rfl | rfl
  · refine ⟨fun name other refers => ?_, fun _ member => nomatch member⟩
    rcases refers_glossary refers with ⟨-, rfl⟩ | ⟨-, rfl⟩ <;> rfl
  · exact ⟨fun _ _ refers => absurd refers not_refers_words, fun _ member => nomatch member⟩

/-- The glossary is resolved, and its types inherit across libraries. -/
theorem glossary_inherits
    : glossary.FreshTypes ∧ (∀ m, Within m glossary → m.Undotted ∧ m.Acyclic)
      ∧ (∀ m, Within m glossary → m.Defined)
      ∧ ∃ r, glossary.resolve = .ok r ∧ Keyed.keys r.types = ["entry", "term"]
        ∧ ∀ name t, Keyed.get? glossary.types name = some t
          → ∃ t', Keyed.get? r.types name = some t' ∧ Place.Inherits ⟨glossary, name, t⟩ t' :=
  ⟨freshTypes_glossary, plain_glossary, defined_glossary,
    resolve_inherits_of_acyclic glossary freshTypes_glossary plain_glossary defined_glossary⟩

end Library

end Raml
