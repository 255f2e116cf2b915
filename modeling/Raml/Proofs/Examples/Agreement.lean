import Raml.Proofs.Examples.Derivation

/-! Two derivations of a value that come to the same.

They may read files in different ways and look names up in different places. What counts is what
they meet on the way: a type's own examples, then, if none of them has a value, its base and the
types of its properties. Where both see the same at each of these types, they derive the same.
-/

namespace Raml

variable {allowed : Error → Prop}

namespace Derivation

variable {load load' : Include} {bases bases' : Bases} {t : TypeNode}

/-- Both ways of reading files are the same for the examples of a type. -/
def Reading (allowed : Error → Prop) (load load' : Include) (t : TypeNode) : Prop :=
  ∀ e ∈ t.allExamples,
    Alike allowed (e.valueOf? load t.kind) (e.valueOf? load' t.kind) fun _ => True

/-- What is known of the base of a type is the same. -/
structure Bases.Agree (allowed : Error → Prop) (load load' : Include) (bases bases' : Bases)
    (t : TypeNode) : Prop where
  declared : bases.of? t = bases'.of? t
  derived (base : TypeNode) (found : bases.of? t = some base)
    : Alike allowed (bases.derived t.baseName) (bases'.derived t.baseName) fun _ => True
  examples (base : TypeNode) (found : bases.of? t = some base) : Reading allowed load load' base

-----------------------------------------------------------------------------------------
-- Examples and bases
-----------------------------------------------------------------------------------------

/-- Which example is the first one with a value is the same, by induction on the examples. -/
theorem firstValue_alike {kind : Kind} {es : List Example}
    (h : ∀ e ∈ es, Alike allowed (e.valueOf? load kind) (e.valueOf? load' kind) fun _ => True)
    : Alike allowed (firstValue load kind es) (firstValue load' kind es) fun _ => True := by
  induction es with
  | nil => exact Alike.ok trivial
  | cons e es ih =>
      obtain ⟨first, rest⟩ := List.forall_mem_cons.mp h
      refine first.bind fun v? _ => ?_
      cases v? with
      | some v => exact Alike.ok trivial
      | none => exact ih rest

/-- The values of all examples are the same, and those that are lists are spread in both. -/
theorem flatValues_alike {kind : Kind} {es : List Example}
    (h : ∀ e ∈ es, Alike allowed (e.valueOf? load kind) (e.valueOf? load' kind) fun _ => True)
    : Alike allowed (flatValues load kind es) (flatValues load' kind es) fun _ => True := by
  induction es with
  | nil => exact Alike.ok trivial
  | cons e es ih =>
      obtain ⟨first, rest⟩ := List.forall_mem_cons.mp h
      exact first.bind fun v? _ => (ih rest).bind fun vs _ => Alike.ok trivial

/-- A base offers the same to both if it is the same base. -/
theorem fromBase_alike (agree : bases.Agree allowed load load' bases' t)
    : Alike allowed (fromBase bases t) (fromBase bases' t) fun _ => True := by
  unfold fromBase
  rw [← agree.declared]
  cases found : bases.of? t with
  | none => exact Alike.ok trivial
  | some base => exact (agree.derived base found).bind fun _ _ => Alike.ok trivial

/-- What the examples of a base make together is the same. -/
theorem collected_alike (agree : bases.Agree allowed load load' bases' t)
    : Alike allowed (collected load bases t) (collected load' bases' t) fun _ => True := by
  unfold collected
  rw [← agree.declared]
  cases found : bases.of? t with
  | none => exact Alike.ok trivial
  | some base =>
      refine (flatValues_alike (agree.examples base found)).bind fun vs _ => ?_
      cases vs <;> exact Alike.ok trivial

/-- Without a base, it is up to the objects. -/
theorem plain_alike {made made' : Except Error (Option Value)}
    (agree : bases.Agree allowed load load' bases' t)
    (objects : Alike allowed made made' fun _ => True)
    : Alike allowed (plain bases t fun _ => made) (plain bases' t fun _ => made')
        fun _ => True := by
  refine (fromBase_alike agree).bind fun v? _ => ?_
  cases v? with
  | some v => exact Alike.ok trivial
  | none => exact objects

-----------------------------------------------------------------------------------------
-- Values
-----------------------------------------------------------------------------------------

/-- By induction on the properties: the first one that fails does so in both. -/
theorem members_alike {properties : Properties}
    (each : ∀ key p, (key, p) ∈ properties
      → Alike allowed (value load bases p.type) (value load' bases' p.type) fun _ => True)
    : Alike allowed (members load bases properties) (members load' bases' properties)
        fun _ => True := by
  induction properties with
  | nil => exact Alike.ok trivial
  | cons entry properties ih =>
      obtain ⟨key, p⟩ := entry
      have rest := ih fun key p member => each key p (List.mem_cons_of_mem _ member)
      rw [members_cons, members_cons]
      refine (each key p List.mem_cons_self).bind fun v? _ => ?_
      cases v? with
      | some v => exact Alike.map (rest.mono fun _ _ => trivial)
      | none =>
          cases p.required with
          | true => exact Alike.ok trivial
          | false => exact rest

/-- A type without a value of its own turns to its base and to the types of its properties. -/
theorem fallback_alike (agree : bases.Agree allowed load load' bases' t)
    (each : ∀ key p, (key, p) ∈ t.properties
      → Alike allowed (value load bases p.type) (value load' bases' p.type) fun _ => True)
    : Alike allowed (fallback load bases t) (fallback load' bases' t) fun _ => True := by
  have objects : Alike allowed (object load bases t) (object load' bases' t) fun _ => True := by
    unfold object
    cases t.properties.isEmpty with
    | true => exact Alike.ok trivial
    | false => exact (members_alike each).bind fun _ _ => Alike.ok trivial
  unfold fallback
  cases t.isArray with
  | false => exact plain_alike agree objects
  | true =>
      refine (collected_alike agree).bind fun v? _ => ?_
      cases v? with
      | some v => exact Alike.ok trivial
      | none =>
          have item : bases.Agree allowed load load' bases' (itemType t) :=
            ⟨agree.declared, agree.derived, agree.examples⟩
          exact (plain_alike item objects).bind fun _ _ => Alike.ok trivial

/-- The types that a derivation comes by: those that have no value of their own lead to their base
and to the types of their properties. -/
inductive Visits (load : Include) (declared : String → Option TypeNode)
    : TypeNode → TypeNode → Prop where
  | self (t : TypeNode) : Visits load declared t t
  | base {t base u : TypeNode} (valueless : firstValue load t.kind t.allExamples = .ok none)
      (looks : t.needsLookup = true) (found : declared t.baseName = some base)
      (inside : Visits load declared base u) : Visits load declared t u
  | property {t u : TypeNode} {key : String} {p : Property}
      (valueless : firstValue load t.kind t.allExamples = .ok none)
      (member : (key, p) ∈ t.properties)
      (inside : Visits load declared p.type u) : Visits load declared t u

/-- What a name of a base stands for, if it is one of the names that may be looked up. -/
def known (declared : String → Option TypeNode) (names : List String) (name : String)
    : Option TypeNode :=
  if names.contains name then declared name else none

theorem known_eq_some {declared : String → Option TypeNode} {names : List String} {name : String}
    {t : TypeNode}
    : known declared names name = some t ↔ name ∈ names ∧ declared name = some t := by
  simp [known]

/-- Two derivations see the same at a type: in its examples and, if they have no value, in what the
name of its base stands for. -/
structure Sees (allowed : Error → Prop) (load load' : Include)
    (declared declared' : String → Option TypeNode) (names names' : List String) (u : TypeNode)
    : Prop where
  examples : Reading allowed load load' u
  base (valueless : firstValue load u.kind u.allExamples = .ok none) (looks : u.needsLookup = true)
    : known declared names u.baseName = known declared' names' u.baseName

/-- A name that is taken out is not known any more, and all others are as before. -/
theorem known_without {declared : String → Option TypeNode} {names : List String} {name : String}
    (other : String)
    : known declared (without names other) name
      = if name = other then none else known declared names name := by
  unfold known
  by_cases same : name = other <;> simp [without, same]

/-- To take the same name out of both changes nothing that one of them sees alone. -/
theorem Sees.without {declared declared' : String → Option TypeNode} {names names' : List String}
    (sees : Sees allowed load load' declared declared' names names' t) (name : String)
    : Sees allowed load load' declared declared' (without names name) (without names' name) t where
  examples := sees.examples
  base valueless looks := by
    rw [known_without, known_without, sees.base valueless looks]

/-- The base of a type is looked up among the names, if there is anything to look up. -/
theorem of?_among (names : List String) (declared : String → Option TypeNode) (t : TypeNode)
    : (basesAmong load declared names).of? t
      = if t.needsLookup then known declared names t.baseName else none :=
  rfl

/-- A base derives its value with its own name taken out. -/
theorem derived_among {declared : String → Option TypeNode} {names : List String} {name : String}
    {base : TypeNode} (found : known declared names name = some base)
    : (basesAmong load declared names).derived name
      = derive load declared (without names name) base := by
  obtain ⟨member, found⟩ := known_eq_some.mp found
  simp only [basesAmong, if_pos member, found]

/-- Bases are the same for a type at which derivations see the same, if that is so further on. -/
theorem agree_among {declared declared' : String → Option TypeNode} {names names' : List String}
    (sees : Sees allowed load load' declared declared' names names' t)
    (valueless : firstValue load t.kind t.allExamples = .ok none)
    (further : ∀ base, t.needsLookup = true → known declared names t.baseName = some base
      → Reading allowed load load' base
        ∧ Alike allowed (derive load declared (without names t.baseName) base)
            (derive load' declared' (without names' t.baseName) base) fun _ => True)
    : (basesAmong load declared names).Agree allowed load load'
        (basesAmong load' declared' names') t := by
  cases looks : t.needsLookup with
  | false =>
      have none : (basesAmong load declared names).of? t = none := by simp [of?_among, looks]
      refine ⟨?_, fun base found => ?_, fun base found => ?_⟩
      · simp [of?_among, looks]
      · cases none.symm.trans found
      · cases none.symm.trans found
  | true =>
      have same := sees.base valueless looks
      have own : (basesAmong load declared names).of? t = known declared names t.baseName := by
        simp [of?_among, looks]
      refine ⟨?_, fun base found => ?_, fun base found => ?_⟩
      · rw [own, same, of?_among, if_pos looks]
      · rw [own] at found
        rw [derived_among found, derived_among (same ▸ found)]
        exact (further base looks found).2
      · exact (further base looks (own ▸ found)).1

/-- Derivations that see the same at all types that one of them comes by have the same outcome. -/
theorem derive_alike {declared declared' : String → Option TypeNode} {names names' : List String}
    (sees : ∀ u, Visits load declared t u
      → Sees allowed load load' declared declared' names names' u)
    : Alike allowed (derive load declared names t) (derive load' declared' names' t)
        fun _ => True := by
  -- A base is followed with one name less; properties are types inside the type.
  induction shorter : names.length using Nat.strongRecOn generalizing names names' t with
  | ind n shortened =>
      subst shorter
      induction t using TypeNode.induct with
      | step t ih =>
          have own := sees t (.self t)
          rw [derive_eq, derive_eq, value_eq, value_eq]
          refine (firstValue_alike own.examples).known.bind fun v? valueless => ?_
          cases v? with
          | some v => exact Alike.ok trivial
          | none =>
              refine fallback_alike (agree_among own valueless fun base looks found => ?_)
                fun key p member => ?_
              · have inside (u : TypeNode) (visited : Visits load declared base u) :=
                  sees u (.base valueless looks (known_eq_some.mp found).2 visited)
                have fewer := length_without_lt (known_eq_some.mp found).1
                exact ⟨(inside base (.self base)).examples, shortened _ fewer
                  (fun u visited => (inside u visited).without t.baseName) rfl⟩
              · have each := ih key p member fun u inside =>
                  sees u (.property valueless member inside)
                rwa [derive_eq, derive_eq] at each

end Derivation

end Raml
