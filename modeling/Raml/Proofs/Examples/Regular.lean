import Raml.Proofs.Documents.Passage
import Raml.Proofs.Examples.Agreement

/-! Values that are read from files or derived: in no object of theirs a key stands twice.

What is derived is put together from values of examples, which may be those of bases, and its
objects have properties for their members.
-/

namespace Raml

open Rules

/-- What is read is a regular value, and binary content for types that are files. -/
def Include.Regular (load : Include) : Prop :=
  ∀ path kind, Yields (load path kind) fun v =>
    v.Regular ∧ (kind = .file → ∃ bytes, v = .binary bytes)

/-- Files that are read hold regular values, and binary content where the type is a file. -/
theorem Source.include_regular (source : Source) (directory : Path)
    : (source.include directory).Regular := by
  intro path kind
  simp only [Source.include]
  split
  · exact Yields.error _
  · by_cases file : kind = .file
    · simp only [file, if_true]
      exact Yields.ok ⟨Value.regular_binary _, fun _ => ⟨_, rfl⟩⟩
    · simp only [file, if_false, false_implies, and_true]
      split
      · exact Value.regular_ofNode _
      · exact Yields.ok (Value.regular_string _)

variable {R : Rules}

/-- The values of examples are regular. -/
theorem Rules.OfType.examples {t : TypeNode} (h : R.OfType t)
    : ∀ e ∈ t.allExamples, ∀ v ∈ e.value, v.Regular := by
  intro e member
  rcases List.mem_append.mp member with single | named
  · exact (all_example.mp (h.declaration.single e (Option.mem_toList.mp single))).1.1
  · obtain ⟨entry, inside, rfl⟩ := List.mem_map.mp named
    exact (all_example.mp ((all_examples.mp h.declaration.named).2 entry inside)).1.1

namespace Derivation

variable {load : Include} {bases : Bases} {t : TypeNode}

/-- If there is a value, it is regular. -/
def Regular (v? : Option Value) : Prop := ∀ v ∈ v?, v.Regular

/-- What bases are declared as obeys rules, and what they derive is regular. -/
structure Bases.Regular (R : Rules) (bases : Bases) : Prop where
  declared (t base : TypeNode) (found : bases.of? t = some base) : R.All base.leaves
  derived (name : String) : Yields (bases.derived name) Derivation.Regular

-----------------------------------------------------------------------------------------
-- Examples and bases
-----------------------------------------------------------------------------------------

/-- The value of an example is regular, be it written or read. -/
theorem valueOf?_regular (reads : load.Regular) (kind : Kind) {e : Example}
    (h : Regular e.value)
    : Yields (e.valueOf? load kind) Regular := by
  unfold Example.valueOf?
  split
  · refine Yields.map fun v read => ?_
    rintro _ ⟨⟩
    exact (reads _ _ v read).1
  · exact Yields.ok h

/-- The first value of regular examples is regular, by induction on them. -/
theorem firstValue_regular (reads : load.Regular) (kind : Kind) {es : List Example}
    (each : ∀ e ∈ es, Regular e.value)
    : Yields (firstValue load kind es) Regular := by
  induction es with
  | nil => exact Yields.ok nofun
  | cons e es ih =>
      obtain ⟨first, rest⟩ := List.forall_mem_cons.mp each
      refine Yields.bind (valueOf?_regular reads kind first) fun v? regular => ?_
      cases v? with
      | some v => exact Yields.ok regular
      | none => exact ih rest

/-- Values that are spread are items of regular lists. -/
theorem flatValues_regular (reads : load.Regular) (kind : Kind) {es : List Example}
    (each : ∀ e ∈ es, Regular e.value)
    : Yields (flatValues load kind es) fun vs => ∀ v ∈ vs, v.Regular := by
  induction es with
  | nil => exact Yields.ok (by simp)
  | cons e es ih =>
      obtain ⟨first, rest⟩ := List.forall_mem_cons.mp each
      refine Yields.bind (valueOf?_regular reads kind first) fun v? regular => ?_
      refine Yields.bind (ih rest) fun vs later => Yields.ok ?_
      refine List.forall_mem_append.mpr ⟨?_, later⟩
      split
      · next items => exact Value.regular_array_iff.mp (regular _ rfl)
      · next v _ => exact List.forall_mem_singleton.mpr (regular v rfl)
      · simp

theorem regular_filter {v? : Option Value} (h : Regular v?) (p : Value → Bool)
    : Regular (v?.filter p) := by
  intro v member
  exact h v (Option.eq_some_of_filter_eq_some member)

/-- What a base offers is regular, since what it derives is. -/
theorem fromBase_regular (known : bases.Regular R) (t : TypeNode)
    : Yields (fromBase bases t) Regular := by
  unfold fromBase
  cases bases.of? t with
  | none => exact Yields.ok nofun
  | some base =>
      refine Yields.bind (known.derived t.baseName) fun v? regular => Yields.ok ?_
      exact regular_filter regular _

/-- The list of the values of a base is regular if they are. -/
theorem collected_regular (reads : load.Regular) (known : bases.Regular R) (t : TypeNode)
    : Yields (collected load bases t) Regular := by
  unfold collected
  cases found : bases.of? t with
  | none => exact Yields.ok nofun
  | some base =>
      have examples := (all_type.mp (known.declared t base found)).1.examples
      refine Yields.bind (flatValues_regular reads base.kind examples) fun vs each => ?_
      cases vs with
      | nil => exact Yields.ok nofun
      | cons v vs =>
          refine Yields.ok (regular_filter ?_ _)
          rintro _ ⟨⟩
          exact Value.regular_array_iff.mpr each

/-- A single type takes what is offered, or the object that is made. -/
theorem plain_regular (known : bases.Regular R) (t : TypeNode)
    {made : Except Error (Option Value)} (objects : Yields made Regular)
    : Yields (plain bases t fun _ => made) Regular := by
  refine Yields.bind (fromBase_regular known t) fun v? regular => ?_
  cases v? with
  | some v => exact Yields.ok regular
  | none => exact objects

-----------------------------------------------------------------------------------------
-- Values
-----------------------------------------------------------------------------------------

/-- The members of an object are called as properties are, in order, and each at most once. -/
theorem members_regular {properties : Properties}
    (each : ∀ key p, (key, p) ∈ properties → Yields (value load bases p.type) Regular)
    : Yields (members load bases properties) fun ms? => ∀ ms ∈ ms?,
        (Keyed.keys ms).Sublist (Keyed.keys properties) ∧ ∀ m ∈ ms, m.2.Regular := by
  induction properties with
  | nil =>
      refine Yields.ok ?_
      rintro _ ⟨⟩
      exact ⟨List.Sublist.refl _, by simp⟩
  | cons entry properties ih =>
      obtain ⟨key, p⟩ := entry
      have rest := ih fun key p member => each key p (List.mem_cons_of_mem _ member)
      rw [members_cons]
      refine Yields.bind (each key p List.mem_cons_self) fun v? regular => ?_
      cases v? with
      | some v =>
          refine Yields.map fun ms? found => ?_
          intro ms member
          obtain ⟨later, some, rfl⟩ := Option.map_eq_some_iff.mp member
          obtain ⟨keys, all⟩ := rest ms? found later some
          exact ⟨keys.cons_cons key, List.forall_mem_cons.mpr ⟨regular v rfl, all⟩⟩
      | none =>
          cases p.required with
          | true => exact Yields.ok (by simp)
          | false =>
              intro ms? found ms member
              obtain ⟨keys, all⟩ := rest ms? found ms member
              exact ⟨keys.cons key, all⟩

/-- An object that is made has properties for members, and no key of theirs stands twice. -/
theorem object_regular (unique : (Keyed.keys t.properties).Nodup)
    (each : ∀ key p, (key, p) ∈ t.properties → Yields (value load bases p.type) Regular)
    : Yields (object load bases t) Regular := by
  unfold object
  split
  · exact Yields.ok nofun
  · refine Yields.bind (members_regular each) fun ms? found => Yields.ok ?_
    intro v member
    obtain ⟨ms, some, rfl⟩ := Option.map_eq_some_iff.mp member
    exact Value.regular_object ((found ms some).1.nodup unique) (found ms some).2

/-- Whatever a type without examples falls back to is regular. -/
theorem fallback_regular (reads : load.Regular) (known : bases.Regular R)
    (unique : (Keyed.keys t.properties).Nodup)
    (each : ∀ key p, (key, p) ∈ t.properties → Yields (value load bases p.type) Regular)
    : Yields (fallback load bases t) Regular := by
  have objects := object_regular unique each
  unfold fallback
  cases t.isArray with
  | false => exact plain_regular known t objects
  | true =>
      refine Yields.bind (collected_regular reads known t) fun v? regular => ?_
      cases v? with
      | some v => exact Yields.ok regular
      | none =>
          refine Yields.bind (plain_regular known (itemType t) objects) fun v? regular => ?_
          refine Yields.ok fun v member => ?_
          obtain ⟨item, some, rfl⟩ := Option.map_eq_some_iff.mp member
          exact Value.regular_array_iff.mpr (List.forall_mem_singleton.mpr (regular item some))

/-- By induction on the type: the members of objects are values of types inside. -/
theorem value_regular (reads : load.Regular) (known : bases.Regular R) (h : R.All t.leaves)
    : Yields (value load bases t) Regular := by
  induction t using TypeNode.induct with
  | step t ih =>
      obtain ⟨own, unique, inside⟩ := all_type.mp h
      rw [value_eq]
      refine Yields.bind (firstValue_regular reads t.kind own.examples) fun v? regular => ?_
      cases v? with
      | some v => exact Yields.ok regular
      | none =>
          exact fallback_regular reads known unique fun key p member =>
            ih key p member (inside _ member).2

/-- A base is followed with one name less. -/
theorem derive_regular (reads : load.Regular) {declared : String → Option TypeNode}
    (lent : ∀ name base, declared name = some base → R.All base.leaves) (names : List String)
    (h : R.All t.leaves)
    : Yields (derive load declared names t) Regular := by
  induction shorter : names.length using Nat.strongRecOn generalizing names t with
  | ind n shortened =>
      subst shorter
      have known : (basesAmong load declared names).Regular R := by
        refine ⟨fun t base found => ?_, fun name => ?_⟩
        · rw [of?_among] at found
          split at found
          · exact lent _ _ (known_eq_some.mp found).2
          · cases found
        · simp only [basesAmong]
          split
          · next member =>
              cases found : declared name with
              | some base => exact shortened _ (length_without_lt member) _ (lent _ _ found) rfl
              | none => exact Yields.ok nofun
          · exact Yields.ok nofun
      rw [derive_eq]
      exact value_regular reads known h

end Derivation

end Raml
