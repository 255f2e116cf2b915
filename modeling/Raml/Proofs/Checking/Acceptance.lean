import Raml.Check
import Raml.Proofs.Guarantee

/-! Which values a type accepts.

It depends on the kind of the type, on its properties and on whether it is written in place. Names
play no other part in it than to tell what has gone wrong.
-/

namespace Raml

/-- Whether values of a kind are checked property by property. -/
def Kind.hasProperties : Kind → Bool
  | .object | .custom _ => true
  | _ => false

namespace TypeNode

/-- The type takes the value. -/
def Accepts (o : CheckOptions) (t : TypeNode) (v : Value) : Prop := t.check v o = .ok ()

/-- The type takes the value as if it were no array: as one of the items, where it is one. -/
def AcceptsItem (o : CheckOptions) (t : TypeNode) (v : Value) : Prop := Check.single o t v = .ok ()

end TypeNode

namespace Check

variable {o : CheckOptions} {t owner : TypeNode} {v : Value}

/-- A single value is checked by its members if the kind of the type has properties, and else by the
kind alone. A type written in place that has properties takes everything. -/
theorem single_eq (o : CheckOptions) (t : TypeNode) (v : Value)
    : single o t v
      = if t.kind.hasProperties then
          if t.isInline then .ok ()
          else
            match v with
            | .object members => checkProperties o t t.properties (some members)
            | .null => checkProperties o t t.properties none
            | _ => .error (wrongKind t v)
        else scalar o t v := by
  obtain ⟨_, ⟨_, _, _, _, _, _⟩, _, _, _, _, _, _, kind, _⟩ := t
  cases kind <;> rfl

/-- A list is in order if each item is, whatever its index. -/
theorem items_ok_iff {check : Value → Except Error Unit} {index : Nat} {vs : List Value}
    : items t check index vs = .ok () ↔ ∀ v ∈ vs, check v = .ok () := by
  induction vs generalizing index with
  | nil => simp [items]
  | cons v vs ih =>
      rw [items, List.forall_mem_cons]
      split
      · rename_i ok
        simp [ok, ih]
      · rename_i failed
        simp [failed]
      · rename_i failed
        simp [failed]

/-- The kind of a type decides which scalars it takes. -/
theorem scalar_ok_congr {u : TypeNode} (kind : t.kind = u.kind)
    : scalar o t v = .ok () ↔ scalar o u v = .ok () := by
  unfold scalar
  rw [kind]
  split <;> simp

/-- The value of a property is there, unless it does not have to be. -/
def Present (o : CheckOptions) (p : Property) (members : Option (List (String × Value))) : Prop :=
  p.required = true → (p.type.isArray = true → o.nullAsArray = false)
    → ∃ v, members.bind (Keyed.get? · p.name) = some v
        ∧ (o.emptyRequired = true ∨ v.isEmpty = false)

/-- The check of what has to be there passes where it is. -/
theorem required_ok_iff {p : Property} {members : Option (List (String × Value))}
    : required o owner p members = .ok () ↔ Present o p members := by
  unfold required Present
  cases p.required with
  | false => simp
  | true =>
      cases exempt : p.type.isArray && o.nullAsArray with
      | true =>
          obtain ⟨array, null⟩ := Bool.and_eq_true_iff.mp exempt
          simp [array, null]
      | false =>
          have counts : p.type.isArray = true → o.nullAsArray = false := by simpa using exempt
          refine Iff.trans ?_ ⟨fun there _ _ => there, fun there => there rfl counts⟩
          cases members.bind (Keyed.get? · p.name) with
          | none => simp
          | some v => cases o.emptyRequired <;> cases v.isEmpty <;> simp

/-- A value that is there conforms, unless it says nothing about a property that may be left out. -/
theorem property_ok_iff {p : Property} {members : Option (List (String × Value))}
    : property o owner members p = .ok ()
      ↔ Present o p members ∧ ∀ v, members.bind (Keyed.get? · p.name) = some v
        → p.required = false ∧ v.isZero = true ∨ p.type.Accepts o v := by
  obtain ⟨type, isRequired, name⟩ := p
  rw [property, unit_bind_eq_ok_iff, required_ok_iff]
  refine and_congr_right fun _ => ?_
  cases members.bind (Keyed.get? · name) with
  | none => simp [pure_eq_ok]
  | some v =>
      simp only [Option.some.injEq, forall_eq', TypeNode.Accepts, TypeNode.check, pure_eq_ok]
      cases skipped : !isRequired && v.isZero with
      | true => simp_all
      | false =>
          have counts : ¬(isRequired = false ∧ v.isZero = true) := by simpa using skipped
          generalize (if type.isArray then array o type (single o type) v
            else single o type v) = result
          cases result <;> simp [counts]

/-- Properties are in order if each of them is; what a value has besides does not count. -/
theorem checkProperties_ok_iff {properties : Properties}
    {members : Option (List (String × Value))}
    : checkProperties o owner properties members = .ok ()
      ↔ ∀ key p, (key, p) ∈ properties → property o owner members p = .ok () := by
  induction properties with
  | nil => simp [checkProperties]
  | cons entry properties ih =>
      obtain ⟨key, p⟩ := entry
      rw [checkProperties, unit_bind_eq_ok_iff, ih]
      simp only [List.mem_cons, Prod.mk.injEq]
      constructor
      · rintro ⟨first, rest⟩ k q (⟨-, rfl⟩ | later)
        · exact first
        · exact rest k q later
      · exact fun all => ⟨all key p (Or.inl ⟨rfl, rfl⟩), fun k q later => all k q (Or.inr later)⟩

end Check

namespace TypeNode

variable {o : CheckOptions} {t u : TypeNode} {v : Value}

/-- A type that is no array takes values one by one. -/
theorem accepts_iff_of_not_array (h : t.isArray = false) : t.Accepts o v ↔ t.AcceptsItem o v := by
  simp [Accepts, AcceptsItem, check, h]

/-- An array takes lists of values that it takes as items. -/
theorem accepts_array_iff (h : t.isArray = true) {vs : List Value}
    : t.Accepts o (.array vs) ↔ ∀ v ∈ vs, t.AcceptsItem o v := by
  simp only [Accepts, check, h, if_true, Check.array, Check.items_ok_iff, AcceptsItem]

/-- Arrays take lists, and null perhaps. -/
theorem not_accepts_boolean_of_array (h : t.isArray = true) (b : Bool)
    : ¬t.Accepts o (.boolean b) := by
  simp [Accepts, check, h, Check.array]

/-- A type of properties takes an object whose members make good on all of them. -/
theorem acceptsItem_object_iff (kind : t.kind.hasProperties = true) (named : t.isInline = false)
    {members : List (String × Value)}
    : t.AcceptsItem o (.object members)
      ↔ ∀ key p, (key, p) ∈ t.properties → Check.Present o p (some members)
        ∧ ∀ v, Keyed.get? members p.name = some v
          → p.required = false ∧ v.isZero = true ∨ p.type.Accepts o v := by
  simp only [AcceptsItem, Check.single_eq, kind, named, if_true, Bool.false_eq_true, if_false,
    Check.checkProperties_ok_iff, Check.property_ok_iff, Option.bind_some]

/-- Types written in place take anything, as long as their kind is not known. -/
theorem acceptsItem_of_inline (kind : t.kind.hasProperties = true) (inPlace : t.isInline = true)
    : t.AcceptsItem o v := by
  simp [AcceptsItem, Check.single_eq, kind, inPlace]

/-- Objects are told apart from what has no members. -/
theorem not_acceptsItem_boolean (kind : t.kind.hasProperties = true) (named : t.isInline = false)
    (b : Bool)
    : ¬t.AcceptsItem o (.boolean b) := by
  simp [AcceptsItem, Check.single_eq, kind, named]

/-- Where the kind has no properties, it decides alone. -/
theorem acceptsItem_iff_scalar (kind : t.kind.hasProperties = false)
    : t.AcceptsItem o v ↔ Check.scalar o t v = .ok () := by
  simp [AcceptsItem, Check.single_eq, kind]

/-- Kind and properties decide, and for types of properties whether they are written in place. -/
theorem acceptsItem_congr (kind : t.kind = u.kind) (properties : t.properties = u.properties)
    (inPlace : t.kind.hasProperties = true → t.isInline = u.isInline)
    : t.AcceptsItem o v ↔ u.AcceptsItem o v := by
  cases h : t.kind.hasProperties with
  | false =>
      rw [acceptsItem_iff_scalar h, acceptsItem_iff_scalar (kind ▸ h), Check.scalar_ok_congr kind]
  | true =>
      have h' : u.kind.hasProperties = true := kind ▸ h
      have same := inPlace h
      cases named : u.isInline with
      | true =>
          rw [named] at same
          simp [acceptsItem_of_inline h same, acceptsItem_of_inline h' named]
      | false =>
          rw [named] at same
          cases v with
          | object members =>
              rw [acceptsItem_object_iff h same, acceptsItem_object_iff h' named, properties]
          | null =>
              simp only [AcceptsItem, Check.single_eq, h, h', same, named, if_true,
                Bool.false_eq_true, if_false, Check.checkProperties_ok_iff, Check.property_ok_iff,
                properties]
          | _ => simp [AcceptsItem, Check.single_eq, h, h', same, named]

/-- An array takes a list if it takes each item, and null where that counts as a list. -/
theorem accepts_iff_of_array (h : t.isArray = true)
    : t.Accepts o v ↔ (∃ vs, v = .array vs ∧ ∀ w ∈ vs, t.AcceptsItem o w)
        ∨ v = .null ∧ o.nullAsArray = true := by
  cases v with
  | array vs => simp [accepts_array_iff h]
  | null => simp [Accepts, check, h, Check.array]
  | _ => simp [Accepts, check, h, Check.array]

/-- Besides what decides about items, it matters whether a type is an array. -/
theorem accepts_congr (isArray : t.isArray = u.isArray) (kind : t.kind = u.kind)
    (properties : t.properties = u.properties) (inPlace : t.isInline = u.isInline)
    : t.Accepts o v ↔ u.Accepts o v := by
  have items (w : Value) : t.AcceptsItem o w ↔ u.AcceptsItem o w :=
    acceptsItem_congr kind properties fun _ => inPlace
  cases array : t.isArray with
  | false =>
      rw [accepts_iff_of_not_array array, accepts_iff_of_not_array (isArray ▸ array), items]
  | true =>
      rw [accepts_iff_of_array array, accepts_iff_of_array (isArray ▸ array)]
      simp only [items]

end TypeNode

end Raml
