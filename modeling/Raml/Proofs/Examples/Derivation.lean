import Raml.ExampleValue
import Raml.Pass.Examples
import Raml.Proofs.Checking.Acceptance
import Raml.Proofs.Documents.Hooks
import Raml.Proofs.Outcomes
import Raml.Proofs.References

/-! Derived examples: where the value comes from that a type without examples takes.

It is the first of its own examples, or what its base offers if that conforms, or an object made of
the values of its properties; only the object is not checked. A type that declares no examples gets
the value that it derives, if there is one.
-/

namespace Raml

namespace Derivation

variable {load : Include} {bases : Bases} {t : TypeNode} {v : Value}

/-- The object made of the values of a type's properties. -/
def object (load : Include) (bases : Bases) (t : TypeNode) : Except Error (Option Value) :=
  if t.properties.isEmpty then return none
  else return (← members load bases t.properties).map .object

/-- The list of what a single item derives. -/
def listed (load : Include) (bases : Bases) (t : TypeNode) : Except Error (Option Value) := do
  return (← plain bases (itemType t) fun _ => object load bases t).map fun v => .array [v]

/-- The value of a type whose own examples have none. -/
def fallback (load : Include) (bases : Bases) (t : TypeNode) : Except Error (Option Value) := do
  if t.isArray then
    match ← collected load bases t with
    | some v => return some v
    | none => listed load bases t
  else plain bases t fun _ => object load bases t

/-- A type's own examples come first. -/
theorem value_eq (load : Include) (bases : Bases) (t : TypeNode)
    : value load bases t
      = firstValue load t.kind t.allExamples >>= fun v? =>
          match v? with
          | some v => .ok (some v)
          | none => fallback load bases t := by
  obtain ⟨_, ⟨properties, _, _, _, _, _⟩, _, _, _, _, _, _, _, _⟩ := t
  rfl

/-- A property that derives no value is left out, unless it is required. -/
theorem members_cons (key : String) (p : Property) (properties : Properties)
    : members load bases ((key, p) :: properties)
      = value load bases p.type >>= fun v? =>
          match v? with
          | some v => (members load bases properties).map (Option.map ((key, v) :: ·))
          | none => if p.required then .ok none else members load bases properties := by
  obtain ⟨type, required, name⟩ := p
  rw [members]
  refine congrArg (value load bases type >>= ·) (funext fun v? => ?_)
  cases v? with
  | some v => cases members load bases properties <;> rfl
  | none => rfl

/-- The declared types that may serve as bases, as long as their names are given. -/
def basesAmong (load : Include) (declared : String → Option TypeNode) (names : List String)
    : Bases where
  declared name := if names.contains name then declared name else none
  derived name :=
    if name ∈ names then
      match declared name with
      | some base => derive load declared (without names name) base
      | none => .ok none
    else .ok none

/-- To derive a value is to do so with the bases that are known by name. -/
theorem derive_eq (load : Include) (declared : String → Option TypeNode) (names : List String)
    (t : TypeNode)
    : derive load declared names t = value load (basesAmong load declared names) t := by
  rw [derive]
  rfl

end Derivation

namespace TypeNode

theorem hasExamples_eq_false_iff {t : TypeNode} : t.hasExamples = false ↔ t.allExamples = [] := by
  simp [hasExamples, allExamples]

theorem materialize_of_none (load : Include) {t : TypeNode} (h : t.hasExamples = false)
    : t.materialize load = .ok t := by
  obtain ⟨⟨_, _, _, example?, examples, _, _, _, _, _⟩, _, _, _, _, _, _, _, _, _⟩ := t
  simp only [hasExamples, Bool.or_eq_false_iff, Bool.not_eq_false', Option.isSome_eq_false_iff,
    Option.isNone_iff_eq_none, List.isEmpty_iff] at h
  obtain ⟨rfl, rfl⟩ := h
  rfl

/-- The type with a derived value for an example. -/
def withDerived (t : TypeNode) (v : Value) : TypeNode :=
  t.withExamples (some (.ofValue v)) [(derivedName, .ofValue v)]

/-- The type tells which value has been derived. -/
theorem withDerived_inj {t : TypeNode} {v w : Value}
    (h : t.withDerived v = t.withDerived w)
    : v = w := by
  have same := congrArg (fun t : TypeNode => t.declaration.example? >>= Example.value) h
  exact Option.some.inj same

/-- A type without examples is not the same once it has one. -/
theorem withDerived_ne {t : TypeNode} (none : t.hasExamples = false) (v : Value)
    : t.withDerived v ≠ t := by
  intro same
  rw [← same] at none
  cases none

/-- Having a derived example changes nothing about which values conform. -/
theorem accepts_withDerived_iff (t : TypeNode) {o : CheckOptions} {v w : Value}
    : (t.withDerived v).Accepts o w ↔ t.Accepts o w :=
  accepts_congr rfl rfl rfl rfl

end TypeNode

/-- A type without examples gets the value that it derives, if there is one. -/
theorem Pass.exampleOf_of_none (source : Source) (scope : Scope) {t : TypeNode}
    (h : t.hasExamples = false)
    : exampleOf source scope t
      = (Derivation.derive (source.include scope.directory) scope.library.getType?
          scope.library.typeNames t).map fun v? => v?.elim t t.withDerived := by
  rw [exampleOf, TypeNode.materialize_of_none _ h, ok_bind, TypeNode.addDerived, h]
  cases Derivation.derive (source.include scope.directory) scope.library.getType?
      scope.library.typeNames t with
  | error e => rfl
  | ok v? => cases v? <;> rfl

end Raml
