import Mathlib.Algebra.Order.Field.Rat
import Mathlib.Tactic.NormNum
import Raml.Proofs.Checking.Acceptance
import Raml.Proofs.References

/-! Which values conform to a type, as a relation; and that checks decide it.

The relation leaves open which numbers may count as integers. Those without a fraction should, but
checks stop at the size of 2 ^ 63, which is the bound of words: they decide the relation in which
larger numbers do not count.
-/

namespace Raml

-----------------------------------------------------------------------------------------
-- Numbers without a fraction
-----------------------------------------------------------------------------------------

namespace Value

/-- The size of a number, if it is finite. -/
def size? (x : Float) : Option ℚ :=
  match x.toModel.unpack with
  | .zero _ => some 0
  | .finite _ mantissa exponent _ => some (mantissa * 2 ^ exponent)
  | .infinity _ | .notANumber => none

/-- The number has no fraction. -/
def Integral (x : Float) : Prop := ∃ n : Nat, size? x = some (n : ℚ)

/-- The number is no larger than signed words are. -/
def WordSized (x : Float) : Prop := ∀ size ∈ size? x, size ≤ 2 ^ 63

/-- A power of two with any exponent, as a fraction of two whole numbers. -/
theorem scaled_eq (mantissa : Nat) (exponent : Int)
    : ((mantissa * 2 ^ exponent.toNat : Nat) : ℚ)
      = mantissa * 2 ^ exponent * (2 ^ (-exponent).toNat : Nat) := by
  have two : (2 : ℚ) ≠ 0 := by norm_num
  have powers : (2 : ℚ) ^ exponent * 2 ^ (-exponent).toNat = 2 ^ exponent.toNat := by
    rw [← zpow_natCast, ← zpow_natCast, ← zpow_add₀ two]
    congr 1
    omega
  push_cast
  rw [mul_assoc, powers]

/-- What counts as whole has no fraction and is no larger than a word. -/
theorem isWhole_iff {x : Float} : isWhole x = true ↔ Integral x ∧ WordSized x := by
  unfold isWhole Integral WordSized size?
  cases x.toModel.unpack with
  | zero sign => simpa using ⟨0, by simp⟩
  | infinity sign => simp
  | notANumber => simp
  | finite sign mantissa exponent positive =>
      have scaled := scaled_eq mantissa exponent
      have nonzero : (0 : ℚ) < (2 ^ (-exponent).toNat : Nat) := by
        exact_mod_cast Nat.two_pow_pos _
      simp only [Nat.shiftLeft_eq, Nat.one_mul, Option.some.injEq, Option.mem_def, forall_eq']
      generalize (mantissa : ℚ) * 2 ^ exponent = size at scaled ⊢
      generalize mantissa * 2 ^ exponent.toNat = whole at scaled ⊢
      generalize 2 ^ (-exponent).toNat = parts at scaled nonzero ⊢
      have divides : whole % parts = 0 ↔ ∃ n : Nat, size = n := by
        rw [← Nat.dvd_iff_mod_eq_zero]
        refine exists_congr fun n => ?_
        rw [← Nat.cast_inj (R := ℚ), scaled, Nat.cast_mul, mul_comm]
        exact mul_right_inj' nonzero.ne'
      have bounded : whole ≤ parts * 2 ^ 63 ↔ size ≤ 2 ^ 63 := by
        rw [← Nat.cast_le (α := ℚ), scaled, Nat.cast_mul, mul_comm]
        push_cast
        exact mul_le_mul_iff_right₀ nonzero
      rw [Bool.and_eq_true_iff, beq_iff_eq, decide_eq_true_iff, divides, bounded]

end Value

-----------------------------------------------------------------------------------------
-- The relation
-----------------------------------------------------------------------------------------

/-- The values of a kind whose values are not checked property by property. Numbers that are `whole`
may count as integers. -/
inductive Kind.Takes (o : CheckOptions) (whole : Float → Prop) : Kind → Value → Prop
  | boolean (b : Bool) : Takes o whole .boolean (.boolean b)
  | string (s : String) : Takes o whole .string (.string s)
  | datetime (s : String) : Takes o whole .datetime (.string s)
  | nil : Takes o whole .nil .null
  | integer (i : Int64) : Takes o whole .integer (.integer i)
  | numberAsInteger {x : Float} (may : o.integerAsNumber = true) (h : whole x)
    : Takes o whole .integer (.number x)
  | number (x : Float) : Takes o whole .number (.number x)
  | integerAsNumber (i : Int64) (may : o.integerAsNumber = true)
    : Takes o whole .number (.integer i)
  | array (vs : List Value) : Takes o whole .array (.array vs)
  | nullAsArray (may : o.nullAsArray = true) : Takes o whole .array .null
  | file (v : Value) : Takes o whole .file v
  | any (v : Value) : Takes o whole .any v

namespace TypeNode

/-- The type of the items of an array: the same type, as one that is no array. -/
def item (t : TypeNode) : TypeNode := { t with isArray := false }

/-- The type is no array, and its values are checked property by property. -/
structure HasMembers (t : TypeNode) : Prop where
  single : t.isArray = false
  kind : t.kind.hasProperties = true
  named : t.isInline = false

/-- The value conforms to the type. -/
inductive Conforms (o : CheckOptions) (whole : Float → Prop) : TypeNode → Value → Prop
  | array {t : TypeNode} {vs : List Value} (isArray : t.isArray = true)
    (each : ∀ v ∈ vs, Conforms o whole t.item v)
    : Conforms o whole t (.array vs)
  | nullAsArray {t : TypeNode} (isArray : t.isArray = true) (may : o.nullAsArray = true)
    : Conforms o whole t .null
  | ofKind {t : TypeNode} {v : Value} (single : t.isArray = false) (takes : t.kind.Takes o whole v)
    : Conforms o whole t v
  | inPlace {t : TypeNode} (v : Value) (single : t.isArray = false)
    (kind : t.kind.hasProperties = true) (inPlace : t.isInline = true)
    : Conforms o whole t v
  | object {t : TypeNode} {members : List (String × Value)} (judged : t.HasMembers)
    (there : ∀ key p, (key, p) ∈ t.properties → Check.Present o p (some members))
    (each : ∀ key p v, (key, p) ∈ t.properties → Keyed.get? members p.name = some v
      → ¬(p.required = false ∧ v.isZero = true) → Conforms o whole p.type v)
    : Conforms o whole t (.object members)
  | null {t : TypeNode} (judged : t.HasMembers)
    (there : ∀ key p, (key, p) ∈ t.properties → Check.Present o p none)
    : Conforms o whole t .null

end TypeNode

-----------------------------------------------------------------------------------------
-- Checks
-----------------------------------------------------------------------------------------

namespace Check

variable {o : CheckOptions} {t owner owner' : TypeNode} {v : Value}

theorem eq_true_of_unless {ok : Bool} {e : Error}
    (h : (if ok then .ok () else .error e : Except Error Unit) = .ok ())
    : ok = true := by
  cases ok with
  | true => rfl
  | false => cases h

/-- For kinds without properties the check is the relation. -/
theorem scalar_ok_iff
    : scalar o t v = .ok () ↔ t.kind.Takes o (fun x => Value.isWhole x = true) v := by
  unfold scalar
  generalize t.kind = kind
  constructor
  · intro ok
    split at ok
    · exact .boolean _
    · exact .string _
    · exact .datetime _
    · exact .integer _
    · obtain ⟨may, whole⟩ := Bool.and_eq_true_iff.mp (eq_true_of_unless ok)
      exact .numberAsInteger may whole
    · exact .number _
    · exact .integerAsNumber _ (eq_true_of_unless ok)
    · exact .file _
    · exact .any _
    · exact .nil
    · exact .array _
    · exact .nullAsArray (eq_true_of_unless ok)
    · cases eq_true_of_unless ok
  · intro takes
    cases takes <;> simp_all

/-- Of the owner of properties, checks need no more than the name. -/
theorem checkProperties_congr (same : owner.typeName = owner'.typeName) {properties : Properties}
    {members : Option (List (String × Value))}
    : checkProperties o owner properties members = checkProperties o owner' properties members := by
  induction properties with
  | nil => rfl
  | cons entry properties ih =>
      obtain ⟨key, ⟨type, isRequired, name⟩⟩ := entry
      simp only [checkProperties, property, required, ih, same]

/-- The check of an item does not see whether its type is an array. -/
theorem single_item (o : CheckOptions) (t : TypeNode) (v : Value)
    : single o t.item v = single o t v := by
  have properties (members : Option (List (String × Value)))
      : checkProperties o t.item t.properties members
        = checkProperties o t t.properties members :=
    checkProperties_congr (show t.item.typeName = t.typeName from rfl)
  rw [single_eq, single_eq]
  refine if_congr Iff.rfl (if_congr Iff.rfl rfl ?_) rfl
  cases v <;> first | exact properties _ | rfl

end Check

/-- Kinds that the relation speaks of are checked without regard to properties. -/
theorem Kind.Takes.hasProperties {o : CheckOptions} {whole : Float → Prop} {kind : Kind}
    {v : Value} (takes : kind.Takes o whole v)
    : kind.hasProperties = false := by
  cases takes <;> rfl

namespace TypeNode

variable {o : CheckOptions} {t : TypeNode} {v : Value}

/-- The type of items takes as items what the array does. -/
theorem acceptsItem_item_iff : t.item.AcceptsItem o v ↔ t.AcceptsItem o v := by
  rw [AcceptsItem, AcceptsItem, Check.single_item]

/-- Null has no members, so it is taken where none have to be there. -/
theorem acceptsItem_null_iff (kind : t.kind.hasProperties = true) (named : t.isInline = false)
    : t.AcceptsItem o .null ↔ ∀ key p, (key, p) ∈ t.properties → Check.Present o p none := by
  simp [AcceptsItem, Check.single_eq, kind, named, Check.checkProperties_ok_iff,
    Check.property_ok_iff]

/-- A type of properties takes objects and null, and nothing else. -/
theorem object_or_null_of_acceptsItem (kind : t.kind.hasProperties = true)
    (named : t.isInline = false) (accepts : t.AcceptsItem o v)
    : (∃ members, v = .object members) ∨ v = .null := by
  cases v with
  | object members => exact Or.inl ⟨members, rfl⟩
  | null => exact Or.inr rfl
  | _ => simp [AcceptsItem, Check.single_eq, kind, named] at accepts

section Whole

variable
  (types : ∀ key p, (key, p) ∈ t.properties
    → ∀ w, p.type.Accepts o w ↔ p.type.Conforms o (fun x => Value.isWhole x = true) w)

include types

/-- What conforms to a type that is no array is taken, by induction on why it conforms. -/
theorem acceptsItem_of_conforms (single : t.isArray = false)
    (conforms : t.Conforms o (fun x => Value.isWhole x = true) v)
    : t.AcceptsItem o v := by
  cases conforms with
  | array isArray => simp [single] at isArray
  | nullAsArray isArray => simp [single] at isArray
  | ofKind _ takes =>
      rw [acceptsItem_iff_scalar takes.hasProperties, Check.scalar_ok_iff]
      exact takes
  | inPlace _ _ kind inPlace => exact acceptsItem_of_inline kind inPlace
  | object judged there each =>
      rw [acceptsItem_object_iff judged.kind judged.named]
      refine fun key p member => ⟨there key p member, fun w found => ?_⟩
      by_cases skipped : p.required = false ∧ w.isZero = true
      · exact Or.inl skipped
      · exact Or.inr ((types key p member w).mpr (each key p w member found skipped))
  | null judged there => exact (acceptsItem_null_iff judged.kind judged.named).mpr there

/-- What is taken conforms, by induction on the type. -/
theorem conforms_of_acceptsItem (single : t.isArray = false) (accepts : t.AcceptsItem o v)
    : t.Conforms o (fun x => Value.isWhole x = true) v := by
  cases kind : t.kind.hasProperties with
  | false =>
      rw [acceptsItem_iff_scalar kind, Check.scalar_ok_iff] at accepts
      exact .ofKind single accepts
  | true =>
      cases named : t.isInline with
      | true => exact .inPlace v single kind named
      | false =>
          have judged : t.HasMembers := ⟨single, kind, named⟩
          obtain ⟨members, rfl⟩ | rfl := object_or_null_of_acceptsItem kind named accepts
          · rw [acceptsItem_object_iff kind named] at accepts
            refine .object judged (fun key p member => (accepts key p member).1) ?_
            intro key p w member found counts
            exact (types key p member w).mp (((accepts key p member).2 w found).resolve_left counts)
          · exact .null judged ((acceptsItem_null_iff kind named).mp accepts)

end Whole

/-- Checks decide the relation, for the numbers that count as whole to them. -/
theorem accepts_iff_conforms_isWhole
    : t.Accepts o v ↔ t.Conforms o (fun x => Value.isWhole x = true) v := by
  induction t using TypeNode.induct generalizing v with
  | step t types =>
      have item (w : Value)
          : t.AcceptsItem o w ↔ t.item.Conforms o (fun x => Value.isWhole x = true) w := by
        rw [← acceptsItem_item_iff]
        have types : ∀ key p, (key, p) ∈ t.item.properties → ∀ w, p.type.Accepts o w
            ↔ p.type.Conforms o (fun x => Value.isWhole x = true) w :=
          fun key p member w => types key p member
        exact ⟨conforms_of_acceptsItem types rfl, acceptsItem_of_conforms types rfl⟩
      cases isArray : t.isArray with
      | false =>
          rw [accepts_iff_of_not_array isArray]
          exact ⟨conforms_of_acceptsItem (fun key p member w => types key p member) isArray,
            acceptsItem_of_conforms (fun key p member w => types key p member) isArray⟩
      | true =>
          rw [accepts_iff_of_array isArray]
          constructor
          · rintro (⟨vs, rfl, each⟩ | ⟨rfl, may⟩)
            · exact .array isArray fun w member => (item w).mp (each w member)
            · exact .nullAsArray isArray may
          · intro conforms
            cases conforms with
            | array _ each => exact Or.inl ⟨_, rfl, fun w member => (item w).mpr (each w member)⟩
            | nullAsArray _ may => exact Or.inr ⟨rfl, may⟩
            | ofKind single => simp [isArray] at single
            | inPlace _ single => simp [isArray] at single
            | object judged => cases isArray.symm.trans judged.single
            | null judged => cases isArray.symm.trans judged.single

/-- Checks decide which values conform, up to numbers that are larger than words. -/
theorem check_ok_iff_conforms (t : TypeNode) (v : Value) (o : CheckOptions)
    : t.check v o = .ok ()
      ↔ t.Conforms o (fun x => Value.Integral x ∧ Value.WordSized x) v := by
  have same : (fun x => Value.isWhole x = true) = fun x => Value.Integral x ∧ Value.WordSized x :=
    funext fun _ => propext Value.isWhole_iff
  rw [← same]
  exact accepts_iff_conforms_isWhole

/-- A large number has no fraction, and is refused as an integer. -/
theorem not_ok_iff_conforms
    : ¬∀ (t : TypeNode) (v : Value) (o : CheckOptions),
        t.check v o = .ok () ↔ t.Conforms o Value.Integral v := by
  intro decides
  have size : Value.size? 1e19 = some ((10 ^ 19 : Nat) : ℚ) := by
    have unpacked : (1e19 : Float).toModel.unpack
        = .finite .positive 4882812500000000 11 (by decide) := by
      with_unfolding_all rfl
    have scaled : ((4882812500000000 : Nat) : ℚ) * 2 ^ (11 : Int) = ((10 ^ 19 : Nat) : ℚ) := by
      norm_num
    rw [Value.size?, unpacked]
    exact congrArg some scaled
  have conforms : (ofName "integer").Conforms { integerAsNumber := true } Value.Integral
      (.number 1e19) := by
    refine .ofKind (by decide +kernel) ?_
    rw [show (ofName "integer").kind = .integer by decide +kernel]
    exact .numberAsInteger rfl ⟨_, size⟩
  have accepted := (decides _ _ _).mpr conforms
  have refused : ((ofName "integer").check (.number 1e19) { integerAsNumber := true }).toBool
      = false := by
    decide +kernel
  rw [accepted] at refused
  cases refused

end TypeNode

end Raml
