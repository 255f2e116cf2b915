import Raml.TypeNode

/-! Inheritance along a chain of types: a type that inherits from another one, which inherits from a
third.

What a type takes does not depend on which of them inherits first, but in one case: only arrays take
the facets of arrays, so a base that is no array hands on none.
-/

namespace Raml

-----------------------------------------------------------------------------------------
-- Parts of a type
-----------------------------------------------------------------------------------------

/-- Of three, the first one counts that sets something. -/
theorem ite_unset_assoc {α : Type} (unset : α → Bool) (a b c : α)
    : (if unset a then (if unset b then c else b) else a)
      = if unset (if unset a then b else a) then c else if unset a then b else a := by
  cases own : unset a <;> simp [own]

theorem ite_unset_self {α : Type} (unset : α → Bool) (a b : α)
    : (if unset (if unset a then b else a) then b else if unset a then b else a)
      = if unset a then b else a := by
  cases own : unset a <;> simp [own]

namespace Keyed

variable {α : Type}

theorem has_append (m n : Keyed α) (key : String) : has (m ++ n) key = (m.has key || n.has key) :=
  List.any_append

/-- Entries are added one after the other. -/
theorem addMissing_cons (m more : Keyed α) (entry : String × α)
    : addMissing m (entry :: more)
      = addMissing (if m.has entry.1 then m else m ++ [entry]) more :=
  rfl

/-- What is there stays there. -/
theorem has_addMissing_of_has {m : Keyed α} {key : String} (more : Keyed α) (h : m.has key = true)
    : (addMissing m more).has key = true := by
  induction more generalizing m with
  | nil => exact h
  | cons entry more ih =>
      rw [addMissing_cons]
      apply ih
      split
      · exact h
      · rw [has_append, h, Bool.true_or]

/-- Two tables are added one after the other. -/
theorem addMissing_append (m more rest : Keyed α)
    : addMissing m (more ++ rest) = addMissing (addMissing m more) rest :=
  List.foldl_append

/-- Every key of what is added is there. -/
theorem has_addMissing_of_mem {m more : Keyed α} {entry : String × α} (h : entry ∈ more)
    : (addMissing m more).has entry.1 = true := by
  induction more generalizing m with
  | nil => cases h
  | cons first more ih =>
      rw [addMissing_cons]
      rcases List.mem_cons.mp h with rfl | later
      · apply has_addMissing_of_has
        cases known : m.has entry.1 with
        | true => exact known
        | false => simp [has]
      · exact ih later

/-- By induction on the last list: whether its entries are added to the second list first, or to all
that is there by then. -/
theorem addMissing_assoc (m more rest : Keyed α)
    : addMissing m (addMissing more rest) = addMissing (addMissing m more) rest := by
  induction rest generalizing more with
  | nil => rfl
  | cons entry rest ih =>
      rw [addMissing_cons, addMissing_cons, ih]
      congr 1
      cases known : more.has entry.1 with
      | true =>
          have member : entry.1 ∈ more.keys := has_iff.mp known
          obtain ⟨other, inside, same⟩ := List.mem_map.mp member
          have there : (addMissing m more).has entry.1 = true := same ▸ has_addMissing_of_mem inside
          rw [if_pos rfl, if_pos there]
      | false =>
          rw [if_neg Bool.false_ne_true, addMissing_append]
          rfl

/-- A table is added once, and the second time nothing in it is missing. -/
theorem addMissing_self (m more : Keyed α)
    : addMissing (addMissing m more) more = addMissing m more := by
  suffices all : ∀ rest : Keyed α, rest ⊆ more
      → addMissing (addMissing m more) rest = addMissing m more
    from all more (List.Subset.refl _)
  intro rest
  induction rest with
  | nil => exact fun _ => rfl
  | cons entry rest ih =>
      intro within
      obtain ⟨member, within⟩ := List.cons_subset.mp within
      rw [addMissing_cons, if_pos (has_addMissing_of_mem member), ih within]

end Keyed

/-- Facets of arrays that set nothing are the ones that a type has by default. -/
theorem ArrayFacets.eq_default_of_isEmpty {f : ArrayFacets} (h : f.isEmpty = true) : f = {} := by
  obtain ⟨uniqueItems, items, minItems, maxItems⟩ := f
  simp only [isEmpty, Bool.and_eq_true, Bool.not_eq_true', Option.isNone_iff_eq_none, beq_iff_eq]
    at h
  obtain ⟨⟨⟨rfl, rfl⟩, rfl⟩, rfl⟩ := h
  rfl

-----------------------------------------------------------------------------------------
-- Whole types
-----------------------------------------------------------------------------------------

/-- What a declaration takes does not depend on who inherits first. -/
theorem Declaration.inherit_assoc (d base root : Declaration)
    : d.inherit (base.inherit root) = (d.inherit base).inherit root := by
  simp only [inherit, Declaration.mk.injEq, true_and]
  exact ⟨Option.or_assoc.symm, Option.or_assoc.symm, ite_unset_assoc String.isEmpty _ _ _,
    ite_unset_assoc String.isEmpty _ _ _, Keyed.addMissing_assoc _ _ _, Option.or_assoc.symm,
    Option.or_assoc.symm⟩

/-- To inherit twice is to inherit once. -/
theorem Declaration.inherit_self (d base : Declaration)
    : (d.inherit base).inherit base = d.inherit base := by
  have again {α : Type} (a b : Option α) : (a.or b).or b = a.or b := by
    rw [Option.or_assoc, Option.or_self]
  simp only [inherit, Declaration.mk.injEq, true_and]
  exact ⟨again _ _, again _ _, ite_unset_self String.isEmpty _ _,
    ite_unset_self String.isEmpty _ _, Keyed.addMissing_self _ _, again _ _, again _ _⟩

namespace TypeNode

/-- An array that sets no facets of arrays has a base that is none and sets none either, and there
are some further on in the chain. -/
structure CutOff (t base root : TypeNode) : Prop where
  isArray : t.isArray = true
  unset : t.array.isEmpty = true
  single : base.isArray = false
  baseUnset : base.array.isEmpty = true
  rootSet : root.array.isEmpty = false

/-- The facets of arrays, which only arrays take. -/
theorem array_inherit (t base : TypeNode)
    : (t.inherit base).array = if t.isArray && t.array.isEmpty then base.array else t.array :=
  rfl

/-- The facets of arrays are the same whichever type inherits first, unless the base has none to
hand on because it is no array. -/
theorem array_inherit_assoc_iff (t base root : TypeNode)
    : (t.inherit (base.inherit root)).array = ((t.inherit base).inherit root).array
      ↔ ¬CutOff t base root := by
  have isArray : (t.inherit base).isArray = t.isArray := rfl
  simp only [array_inherit, isArray]
  cases own : t.isArray && t.array.isEmpty with
  | false =>
      have apart : ¬CutOff t base root := fun h => by simp [h.isArray, h.unset] at own
      simp [own, apart]
  | true =>
      obtain ⟨array, unset⟩ := Bool.and_eq_true_iff.mp own
      simp only [array, Bool.true_and, if_true]
      cases baseUnset : base.array.isEmpty with
      | false =>
          have apart : ¬CutOff t base root := fun h => by simp [h.baseUnset] at baseUnset
          simp [apart]
      | true =>
          simp only [Bool.and_true, if_true]
          cases single : base.isArray with
          | true =>
              have apart : ¬CutOff t base root := fun h => by simp [h.single] at single
              simp [apart]
          | false =>
              rw [if_neg Bool.false_ne_true]
              cases rootSet : root.array.isEmpty with
              | false =>
                  have cut : CutOff t base root := ⟨array, unset, single, baseUnset, rootSet⟩
                  have apart : base.array ≠ root.array := fun same => by
                    simp [← same, baseUnset] at rootSet
                  simp [cut, apart]
              | true =>
                  have apart : ¬CutOff t base root := fun h => by simp [h.rootSet] at rootSet
                  simp [apart, ArrayFacets.eq_default_of_isEmpty baseUnset,
                    ArrayFacets.eq_default_of_isEmpty rootSet]

/-- But for the facets of arrays, it does not count which type inherits first. -/
theorem inherit_assoc_but_array (t base root : TypeNode)
    : { t.inherit (base.inherit root) with array := ((t.inherit base).inherit root).array }
      = (t.inherit base).inherit root := by
  simp only [inherit, TypeNode.mk.injEq, true_and, and_true]
  exact ⟨Declaration.inherit_assoc _ _ _, ite_unset_assoc ObjectFacets.isEmpty _ _ _,
    ite_unset_assoc ScalarFacets.isEmpty _ _ _, ite_unset_assoc StringFacets.isEmpty _ _ _,
    ite_unset_assoc FileFacets.isEmpty _ _ _⟩

/-- Inheriting a second time from one base changes nothing. -/
theorem inherit_twice (t base : TypeNode) : (t.inherit base).inherit base = t.inherit base := by
  simp only [inherit, TypeNode.mk.injEq, and_true]
  exact ⟨Declaration.inherit_self _ _, ite_unset_self ObjectFacets.isEmpty _ _,
    ite_unset_self ScalarFacets.isEmpty _ _, ite_unset_self StringFacets.isEmpty _ _,
    ite_unset_self (fun f : ArrayFacets => t.isArray && f.isEmpty) _ _,
    ite_unset_self FileFacets.isEmpty _ _⟩

/-- A type comes to the same whichever type of a chain inherits first, in every part but the facets
of arrays, and in these too unless an array is cut off from them. Inheriting from a base again
changes nothing. -/
theorem inherit_assoc_iff (t base root : TypeNode)
    : { t.inherit (base.inherit root) with array := ((t.inherit base).inherit root).array }
        = (t.inherit base).inherit root
      ∧ (t.inherit (base.inherit root) = (t.inherit base).inherit root ↔ ¬CutOff t base root)
      ∧ (t.inherit base).inherit base = t.inherit base := by
  have rest := inherit_assoc_but_array t base root
  refine ⟨rest, ?_, inherit_twice t base⟩
  rw [← array_inherit_assoc_iff]
  constructor
  · exact congrArg TypeNode.array
  · intro same
    rw [← same] at rest
    exact rest

end TypeNode

end Raml
