import Raml.Json

/-! JSON that leaves out members which are null.

How many are left out decides whether the rest is the same: only then is nothing left out.
-/

namespace Raml.Json

mutual

/-- The first value is the second one without so many members, at any depth, which are null. -/
inductive Omits : Nat → Json → Json → Prop where
  | same (j : Json) : Omits 0 j j
  | arr {n : Nat} {js js' : List Json} (items : ItemsOmit n js js') : Omits n (.arr js) (.arr js')
  | obj {n : Nat} {ms ms' : List (String × Json)} (members : MembersOmit n ms ms')
      : Omits n (.obj ms) (.obj ms')

inductive ItemsOmit : Nat → List Json → List Json → Prop where
  | nil : ItemsOmit 0 [] []
  | cons {m n : Nat} {j j' : Json} {js js' : List Json} (first : Omits m j j')
      (rest : ItemsOmit n js js')
      : ItemsOmit (m + n) (j :: js) (j' :: js')

inductive MembersOmit : Nat → List (String × Json) → List (String × Json) → Prop where
  | nil : MembersOmit 0 [] []
  | cons {m n : Nat} (key : String) {j j' : Json} {ms ms' : List (String × Json)}
      (first : Omits m j j') (rest : MembersOmit n ms ms')
      : MembersOmit (m + n) ((key, j) :: ms) ((key, j') :: ms')
  | null {n : Nat} (key : String) {ms ms' : List (String × Json)} (rest : MembersOmit n ms ms')
      : MembersOmit (n + 1) ms ((key, .null) :: ms')

end

variable {m n : Nat} {j j' : Json} {js js' : List Json} {ms ms' ls ls' : List (String × Json)}

-----------------------------------------------------------------------------------------
-- How much is left out
-----------------------------------------------------------------------------------------

mutual

/-- Where something is left out, the rest is smaller. -/
theorem Omits.sizeOf_le : ∀ {n j j'}, Omits n j j' → sizeOf j + n ≤ sizeOf j'
  | _, _, _, .same j => Nat.le_refl _
  | _, _, _, .arr items => by
      have := items.sizeOf_le
      simp only [Json.arr.sizeOf_spec]
      omega
  | _, _, _, .obj members => by
      have := members.sizeOf_le
      simp only [Json.obj.sizeOf_spec]
      omega

/-- By induction on the items, with what is left out of each. -/
theorem ItemsOmit.sizeOf_le : ∀ {n js js'}, ItemsOmit n js js' → sizeOf js + n ≤ sizeOf js'
  | _, _, _, .nil => Nat.le_refl _
  | _, _, _, .cons first rest => by
      have := first.sizeOf_le
      have := rest.sizeOf_le
      simp only [List.cons.sizeOf_spec]
      omega

/-- By induction on the members: one that is left out makes the rest smaller. -/
theorem MembersOmit.sizeOf_le : ∀ {n ms ms'}, MembersOmit n ms ms' → sizeOf ms + n ≤ sizeOf ms'
  | _, _, _, .nil => Nat.le_refl _
  | _, _, _, .cons key first rest => by
      have := first.sizeOf_le
      have := rest.sizeOf_le
      simp only [List.cons.sizeOf_spec, Prod.mk.sizeOf_spec]
      omega
  | _, _, _, .null key rest => by
      have := rest.sizeOf_le
      simp only [List.cons.sizeOf_spec, Prod.mk.sizeOf_spec]
      omega

end

mutual

/-- If none is left out, both are the same, by induction on the value. -/
theorem Omits.eq_of_zero : ∀ {n j j'}, Omits n j j' → n = 0 → j = j'
  | _, _, _, .same j, _ => rfl
  | _, _, _, .arr items, zero => congrArg Json.arr (items.eq_of_zero zero)
  | _, _, _, .obj members, zero => congrArg Json.obj (members.eq_of_zero zero)

theorem ItemsOmit.eq_of_zero : ∀ {n js js'}, ItemsOmit n js js' → n = 0 → js = js'
  | _, _, _, .nil, _ => rfl
  | _, _, _, .cons first rest, zero => by
      obtain ⟨own, others⟩ := Nat.add_eq_zero_iff.mp zero
      rw [first.eq_of_zero own, rest.eq_of_zero others]

theorem MembersOmit.eq_of_zero : ∀ {n ms ms'}, MembersOmit n ms ms' → n = 0 → ms = ms'
  | _, _, _, .nil, _ => rfl
  | _, _, _, .cons key first rest, zero => by
      obtain ⟨own, others⟩ := Nat.add_eq_zero_iff.mp zero
      rw [first.eq_of_zero own, rest.eq_of_zero others]

end

/-- Nothing is left out exactly if the rest is the same. -/
theorem Omits.eq_iff (h : Omits n j j') : j = j' ↔ n = 0 := by
  constructor
  · rintro rfl
    have := h.sizeOf_le
    omega
  · exact h.eq_of_zero

-----------------------------------------------------------------------------------------
-- Members and items that are joined
-----------------------------------------------------------------------------------------

namespace MembersOmit

/-- Nothing has to be left out. -/
theorem same (ms : List (String × Json)) : MembersOmit 0 ms ms := by
  induction ms with
  | nil => exact .nil
  | cons entry ms ih => exact .cons entry.1 (.same entry.2) ih

/-- What is left out of two lists is left out of both together. -/
theorem append
    : ∀ {m ms ms'}, MembersOmit m ms ms' → MembersOmit n ls ls'
      → MembersOmit (m + n) (ms ++ ls) (ms' ++ ls')
  | _, _, _, .nil, rest => by simpa using rest
  | _, _, _, .cons key first others, rest => by
      rw [Nat.add_assoc]
      exact .cons key first (append others rest)
  | _, _, _, .null key others, rest => by
      rw [Nat.add_right_comm]
      exact .null key (append others rest)

end MembersOmit

end Raml.Json
