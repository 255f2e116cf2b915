import Raml.Proofs.Documents.Files
import Raml.Proofs.Examples.Derivation
import Raml.Proofs.Examples.Fitting

/-! Derived examples conform in a document unless they are flawed.

Flaws are defined where properties are named by their keys, which is so once a document is prepared.
A document without any examples shows both outcomes: of a type whose property is optional a value is
derived that conforms, and of one that requires such a value of another it is not.
-/

namespace Raml

-----------------------------------------------------------------------------------------
-- Names of properties
-----------------------------------------------------------------------------------------

/-- Passes keep the names of properties, and give their keys to new ones. -/
theorem Demands.lasting_named : Demands.named.Lasting where
  annotations _ _ := trivial
  types types h := Properties.Named.withTypes h types
  nearer _ _ := trivial
  nil := Properties.named_nil
  more := Properties.Named.append

/-- No key stands twice in a list of properties. -/
def Demands.keyed : Demands :=
  Demands.named.withProperties fun ps => (Keyed.keys ps).Nodup

/-- Once a document is prepared, properties are named by their keys everywhere. -/
theorem Parser.prepare_named {p : Parser} {target : Target} {mediaTypes : Option (List String)}
    {d d' : Document} (root : d.library.location = none)
    (keyed : ∀ spot ∈ d.spots, spot.Meets .keyed)
    (prepared : p.prepare target mediaTypes d = .ok d')
    : ∀ spot ∈ d'.spots, spot.Meets .named :=
  Parser.prepare_meets Demands.lasting_named (fun _ _ => Properties.named_of_normalize)
    (fun _ _ _ _ _ _ _ => trivial) root keyed prepared

-----------------------------------------------------------------------------------------
-- Derived examples
-----------------------------------------------------------------------------------------

/-- The bases of types as they are looked up in a scope. -/
def Scope.bases (source : Source) (scope : Scope) : Derivation.Bases :=
  Derivation.basesAmong (source.include scope.directory) scope.library.getType?
    scope.library.typeNames

/-- In a document that is prepared, a type without examples either stays as it is or gets a derived
value, and conforms to it unless the value is flawed. Nothing is asked of examples but that those
conform which have to. -/
theorem Parser.derived_accepts_iff {p : Parser} {target : Target}
    {mediaTypes : Option (List String)} {d d' : Document} (root : d.library.location = none)
    (keyed : ∀ spot ∈ d.spots, spot.Meets .keyed)
    (prepared : p.prepare target mediaTypes d = .ok d') {t t' : TypeNode} (stands : d'.Has t)
    (none : t.hasExamples = false) {scope : Scope}
    (exemplary : Derivation.Exemplary (p.source.include scope.directory) t)
    (filled : Pass.exampleOf p.source scope t = .ok t')
    : t' = t ∨ ∃ v, t' = t.withDerived v
        ∧ (t'.Accepts {} v
          ↔ ¬Derivation.Flawed (p.source.include scope.directory) (scope.bases p.source) t) := by
  obtain ⟨pos, named⟩ := stands.meets (p.prepare_named root keyed prepared)
  rw [Pass.exampleOf_of_none _ _ none] at filled
  obtain ⟨v?, derived, rfl⟩ := map_eq_ok_iff.mp filled
  cases v? with
  | none => exact Or.inl rfl
  | some v =>
      refine Or.inr ⟨v, rfl, ?_⟩
      rw [Derivation.derive_eq] at derived
      exact t.accepts_withDerived_iff.trans
        (Derivation.accepts_iff_not_flawed named exemplary derived)

-----------------------------------------------------------------------------------------
-- A document without examples
-----------------------------------------------------------------------------------------

/-- There are no examples. -/
def Demands.noExamples : Demands := .ofExamples fun _ _ => False

/-- No pass brings in an example that was not there. -/
theorem Demands.lasting_noExamples : Demands.noExamples.Lasting :=
  lasting_ofExamples (fun _ _ _ => id) fun _ _ _ _ => id

/-- A document without examples has none when it is prepared. -/
theorem Parser.prepare_noExamples {p : Parser} {target : Target}
    {mediaTypes : Option (List String)} {d d' : Document} (root : d.library.location = none)
    (h : ∀ spot ∈ d.spots, spot.Meets .noExamples)
    (prepared : p.prepare target mediaTypes d = .ok d')
    : ∀ spot ∈ d'.spots, spot.Meets .noExamples :=
  Parser.prepare_meets Demands.lasting_noExamples (fun _ _ (_ : True) _ => trivial)
    (fun _ _ _ _ _ none _ => none.elim) root h prepared

/-- A type that meets the demand has no examples of its own. -/
theorem TypeNode.hasExamples_of_noExamples {t : TypeNode} {pos : Position}
    (meets : t.Meets .noExamples pos)
    : t.hasExamples = false := by
  obtain ⟨none, -, -⟩ := meets
  exact hasExamples_eq_false_iff.mpr (List.eq_nil_iff_forall_not_mem.mpr none)

/-- Without examples there are none that do not conform. -/
theorem Derivation.exemplary_of_noExamples {t : TypeNode} {pos : Position}
    (meets : t.Meets .noExamples pos) (load : Include)
    : Exemplary load t := by
  intro u inside e member
  obtain ⟨_, ⟨none, -, -⟩⟩ := meets.within inside
  exact (none e member).elim

/-- Dogs may have names, and whoever owns a dog has one. -/
def kennel : Document :=
  { library := { Library.empty with
      types := [
        ("dog", (TypeNode.ofName "object").withProperties [("name?", .ofName "name?" "string")]),
        ("owner", (TypeNode.ofName "object").withProperties [("dog", .ofName "dog" "dog")])] } }

/-- There is no example that anything could be demanded of, and no type has two properties. -/
theorem kennel_meets {M : Demands} (nil : M.ofProperties [])
    (single : ∀ key p, M.ofProperties [(key, p)])
    : ∀ spot ∈ kennel.spots, spot.Meets M := by
  have plain (name : String) (pos : Position) : (TypeNode.ofName name).Meets M pos :=
    .intro nofun nil nofun
  have withProperty (name key type : String) (pos : Position)
      : ((TypeNode.ofName name).withProperties [(key, .ofName key type)]).Meets M pos := by
    refine .intro nofun (single _ _) fun other p member => ?_
    cases List.mem_singleton.mp member
    exact plain type _
  refine Document.forall_spots_iff.mpr ⟨Library.forall_spots_iff.mpr ⟨?_, nofun, nofun, nofun⟩,
    nofun, nil, nofun⟩
  intro entry member
  simp only [kennel, List.mem_cons, List.not_mem_nil, or_false] at member
  rcases member with rfl | rfl
  · exact withProperty _ _ _ _
  · exact withProperty _ _ _ _

/-- The types of the kennel are declared without examples. -/
theorem kennel_noExamples : ∀ spot ∈ kennel.spots, spot.Meets .noExamples :=
  kennel_meets trivial fun _ _ => trivial

/-- The types of the kennel have a property each at most. -/
theorem kennel_keyed : ∀ spot ∈ kennel.spots, spot.Meets .keyed :=
  kennel_meets List.nodup_nil fun key _ => List.nodup_singleton key

/-- Whether a declared type takes what it derives once the document is prepared. -/
def Document.takesDerived? (d : Document) (name : String) : Option Bool := do
  let d ← (({} : Parser).prepare .api none d).toOption
  let t ← Keyed.get? d.library.types name
  let v ← (← (Derivation.derive (Source.empty.include d.directory) d.library.getType?
    d.library.typeNames t).toOption)
  return Derivation.fits t v

/-- What is derived for a dog conforms, and what is derived for an owner does not. -/
theorem kennel_takesDerived
    : kennel.takesDerived? "dog" = some true ∧ kennel.takesDerived? "owner" = some false := by
  decide +kernel

/-- A type in a document, and the example that is derived for it. -/
structure Document.Derives (d d' : Document) (t : TypeNode) (v : Value) : Prop where
  prepared : ({} : Parser).prepare .api none d = .ok d'
  stands : d'.Has t
  none : t.hasExamples = false
  exemplary : Derivation.Exemplary (Source.empty.include d'.directory) t
  filled : Pass.exampleOf .empty d'.scope t = .ok (t.withDerived v)

/-- What is computed is whether the derived value conforms. -/
theorem Document.derives_of_takesDerived? {d : Document} (root : d.library.location = none)
    (h : ∀ spot ∈ d.spots, spot.Meets .noExamples) {name : String} {takes : Bool}
    (found : d.takesDerived? name = some takes)
    : ∃ d' t v, d.Derives d' t v ∧ ((t.withDerived v).Accepts {} v ↔ takes = true) := by
  obtain ⟨d', prepared, found⟩ := Option.bind_eq_some_iff.mp found
  obtain ⟨t, declared, found⟩ := Option.bind_eq_some_iff.mp found
  obtain ⟨v?, derived, found⟩ := Option.bind_eq_some_iff.mp found
  obtain ⟨v, rfl, found⟩ := Option.bind_eq_some_iff.mp found
  cases found
  have prepared := ok_of_toOption prepared
  have stands : d'.Has t := Document.has_of_get? declared
  obtain ⟨pos, meets⟩ := stands.meets (Parser.prepare_noExamples root h prepared)
  have none := TypeNode.hasExamples_of_noExamples meets
  refine ⟨d', t, v, ⟨prepared, stands, none, Derivation.exemplary_of_noExamples meets _, ?_⟩, ?_⟩
  · have derived : Derivation.derive (Source.empty.include d'.scope.directory)
        d'.scope.library.getType? d'.scope.library.typeNames t = .ok (some v) :=
      ok_of_toOption derived
    rw [Pass.exampleOf_of_none _ _ none, derived]
    rfl
  · rw [TypeNode.accepts_withDerived_iff, ← Derivation.fits_iff]

/-- Of the dog a value is derived that conforms, of the owner one that is flawed. -/
theorem kennel_derived
    : (∃ d' t v, kennel.Derives d' t v ∧ (t.withDerived v).Accepts {} v
        ∧ ¬Derivation.Flawed (Source.empty.include d'.directory) (d'.scope.bases .empty) t)
      ∧ ∃ d' t v, kennel.Derives d' t v ∧ ¬(t.withDerived v).Accepts {} v
        ∧ Derivation.Flawed (Source.empty.include d'.directory) (d'.scope.bases .empty) t := by
  have applied {d' : Document} {t : TypeNode} {v : Value} (derives : kennel.Derives d' t v)
      : (t.withDerived v).Accepts {} v
        ↔ ¬Derivation.Flawed (Source.empty.include d'.directory) (d'.scope.bases .empty) t := by
    obtain ⟨prepared, stands, none, exemplary, filled⟩ := derives
    rcases Parser.derived_accepts_iff rfl kennel_keyed prepared stands none exemplary filled
      with same | ⟨w, same, outcome⟩
    · exact absurd same (t.withDerived_ne none v)
    · cases TypeNode.withDerived_inj same
      exact outcome
  obtain ⟨dog, owner⟩ := kennel_takesDerived
  obtain ⟨d₁, t₁, v₁, derives₁, takes₁⟩ :=
    Document.derives_of_takesDerived? rfl kennel_noExamples dog
  obtain ⟨d₂, t₂, v₂, derives₂, takes₂⟩ :=
    Document.derives_of_takesDerived? rfl kennel_noExamples owner
  have accepts := takes₁.mpr rfl
  have refuses : ¬(t₂.withDerived v₂).Accepts {} v₂ := fun accepted => nomatch takes₂.mp accepted
  refine ⟨⟨d₁, t₁, v₁, derives₁, accepts, (applied derives₁).mp accepts⟩,
    ⟨d₂, t₂, v₂, derives₂, refuses, ?_⟩⟩
  exact not_not.mp fun sound => refuses ((applied derives₂).mpr sound)

/-- A derived example is not always one of the values of its type, not even where nothing else is an
example: the owner gets a dog of which nothing is known. -/
theorem not_derived_accepts
    : ¬∀ (d d' : Document) (t : TypeNode) (v : Value),
        d.Derives d' t v → (t.withDerived v).Accepts {} v := by
  intro conforms
  obtain ⟨d', t, v, derives, takes⟩ :=
    Document.derives_of_takesDerived? rfl kennel_noExamples kennel_takesDerived.2
  exact nomatch takes.mp (conforms kennel d' t v derives)

end Raml
