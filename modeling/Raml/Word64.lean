/-! Whole numbers as words of 64 bits. -/

namespace Raml

/-- The signed word that has a value. -/
def int64? (i : Int) : Option Int64 :=
  if Int64.minValue.toInt ≤ i ∧ i ≤ Int64.maxValue.toInt then some (Int64.ofInt i) else none

/-- The word without a sign that has a value. -/
def uint64? (i : Int) : Option UInt64 :=
  if 0 ≤ i ∧ i < UInt64.size then some (UInt64.ofNat i.toNat) else none

/-- A word is found for its own value and no other. -/
theorem int64?_eq_some_iff {i : Int} {w : Int64} : int64? i = some w ↔ w.toInt = i := by
  unfold int64?
  constructor
  · intro h
    split at h
    · next bounds =>
        obtain ⟨lower, upper⟩ := bounds
        rw [Int64.toInt_minValue] at lower
        rw [Int64.toInt_maxValue] at upper
        rw [← Option.some.inj h]
        exact Int64.toInt_ofInt_of_le lower (by omega)
    · cases h
  · rintro rfl
    rw [if_pos ⟨w.minValue_le_toInt, w.toInt_le⟩, Int64.ofInt_toInt]

end Raml
