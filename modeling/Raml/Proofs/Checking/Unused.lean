import Raml.Proofs.Checking.Failures
import Mathlib.Data.String.Basic

/-! Declarations that nothing uses: which names a review lists, and when it stops for them.
-/

namespace Raml.Review

-----------------------------------------------------------------------------------------
-- Names
-----------------------------------------------------------------------------------------

/-- Names in order are in strict order once they stand once. -/
theorem pairwise_eraseDups {names : List String} (sorted : names.Pairwise (· ≤ ·))
    : names.eraseDups.Pairwise (· < ·) := by
  induction length : names.length using Nat.strongRecOn generalizing names with
  | ind n ih =>
      cases names with
      | nil => simp
      | cons name names =>
          obtain ⟨first, rest⟩ := List.pairwise_cons.mp sorted
          rw [List.eraseDups_cons, List.pairwise_cons]
          constructor
          · intro other member
            simp only [List.mem_eraseDups, List.mem_filter, Bool.not_eq_true',
              beq_eq_false_iff_ne] at member
            exact lt_of_le_of_ne (first other member.1) (Ne.symm member.2)
          · refine ih _ ?_ (rest.filter _) rfl
            have shorter := List.length_filter_le (fun other => !other == name) names
            simp only [List.length_cons] at length
            omega

variable {declared used names : List String}

/-- Nothing is listed but what is declared and not used. -/
theorem mem_unused_iff {name : String}
    : name ∈ unused declared used ↔ name ∈ declared ∧ name ∉ used := by
  simp [unused]

/-- The unused names are listed in order, each one once. -/
theorem pairwise_unused : (unused declared used).Pairwise (· < ·) := by
  apply pairwise_eraseDups
  have sorted := @List.pairwise_mergeSort _ (fun a b : String => decide (a ≤ b))
    (by simpa using fun a b c => le_trans) (by simpa using le_total)
    (declared.filter fun name => !used.contains name)
  exact sorted.imp fun less => by simpa using less

-----------------------------------------------------------------------------------------
-- Reviews
-----------------------------------------------------------------------------------------

variable {s : Settings} {target : Target} {d : Document}

/-- The full names of the annotations that a document and its libraries declare and that are not
applied. -/
def unusedAnnotations (target : Target) (d : Document) : List String :=
  unused (declaredNames (fun l => Keyed.keys l.annotationTypes) d.library)
    ((d.sites target).flatMap annotationsUsed)

/-- The full names of the traits that a document and its libraries declare and that are not used. -/
def unusedTraits (target : Target) (d : Document) : List String :=
  unused (declaredNames (fun l => Keyed.keys l.traits) d.library)
    ((d.sites target).flatMap traitsUsed)

/-- A review comes to the annotations that are not applied. -/
structure ReachesAnnotations (target : Target) (d : Document) : Prop where
  keys : (d.sites target).forM unknownKey = .ok ()
  targets : (d.sites target).forM annotationTargets = .ok ()

/-- A review comes to the traits that are not used. -/
structure ReachesTraits (s : Settings) (target : Target) (d : Document) : Prop
    extends ReachesAnnotations target d where
  annotations : s.ignoreUnusedAnnotations = true ∨ unusedAnnotations target d = []

/-- Whether a check passes. -/
instance (checked : Except Error Unit) : Decidable (checked = .ok ()) :=
  match checked with
  | .ok () => .isTrue rfl
  | .error _ => .isFalse nofun

instance : Decidable (ReachesAnnotations target d) :=
  decidable_of_iff
    ((d.sites target).forM unknownKey = .ok () ∧ (d.sites target).forM annotationTargets = .ok ())
    ⟨fun ⟨keys, targets⟩ => ⟨keys, targets⟩, fun h => ⟨h.keys, h.targets⟩⟩

instance : Decidable (ReachesTraits s target d) :=
  decidable_of_iff
    (ReachesAnnotations target d
      ∧ (s.ignoreUnusedAnnotations = true ∨ unusedAnnotations target d = []))
    ⟨fun ⟨reaches, annotations⟩ => ⟨reaches, annotations⟩,
      fun h => ⟨h.toReachesAnnotations, h.annotations⟩⟩

/-- What is left of a review when it comes to the traits that are not used. -/
def runTraits (s : Settings) (target : Target) (d : Document) : Except Error Unit :=
  if !(unusedTraits target d).isEmpty && !s.ignoreUnusedTraits then
    .error (.unusedTraits (unusedTraits target d))
  else (d.sites target).forM (examples s.check)

/-- A review looks for unknown keys, for annotations out of place, and for what is not used, in this
order. -/
theorem run_eq (s : Settings) (target : Target) (d : Document)
    : run s target d
      = (d.sites target).forM unknownKey >>= fun _ =>
        (d.sites target).forM annotationTargets >>= fun _ =>
          if !(unusedAnnotations target d).isEmpty && !s.ignoreUnusedAnnotations then
            .error (.unusedAnnotations (unusedAnnotations target d))
          else runTraits s target d :=
  rfl

/-- If it comes to the traits, the rest decides. -/
theorem run_of_reachesTraits (h : ReachesTraits s target d)
    : run s target d = runTraits s target d := by
  rw [run_eq, h.keys, ok_bind, h.targets, ok_bind]
  rcases h.annotations with ignored | none
  · simp [ignored]
  · simp [none]

/-- A review stops for names where there are any, unless they are ignored. -/
theorem stops_iff {error : List String → Error} (distinct : Function.Injective error)
    {found : List String} {ignored : Bool} {rest : Except Error Unit}
    (other : rest ≠ .error (error names))
    : (if !found.isEmpty && !ignored then .error (error found) else rest) = .error (error names)
      ↔ ignored = false ∧ names ≠ [] ∧ found = names := by
  cases ignored with
  | true => simp [other]
  | false =>
      cases found with
      | nil =>
          simp only [List.isEmpty_nil, Bool.not_true, Bool.false_and, Bool.false_eq_true,
            if_false]
          constructor
          · intro same
            exact absurd same other
          · rintro ⟨-, some, rfl⟩
            exact absurd rfl some
      | cons name found =>
          simp only [List.isEmpty_cons, Bool.not_false, Bool.and_self, if_true, Except.error.injEq,
            distinct.eq_iff, true_and]
          constructor
          · rintro rfl
            exact ⟨List.cons_ne_nil _ _, rfl⟩
          · exact And.right

/-- Examples are refused for their values only. -/
theorem examples_ne {e : Error} (h : ¬e.Refusal)
    : (d.sites target).forM (examples s.check) ≠ .error e := by
  intro failed
  have refuses : Fails Error.Refusal ((d.sites target).forM (examples s.check)) :=
    Fails.forM fun site _ => examples_refuses s.check site
  exact h (refuses.error e failed)

/-- It fails for unused traits exactly if there are some and they are not ignored. -/
theorem run_unusedTraits_iff (h : ReachesTraits s target d)
    : run s target d = .error (.unusedTraits names)
      ↔ s.ignoreUnusedTraits = false ∧ names ≠ [] ∧ unusedTraits target d = names := by
  rw [run_of_reachesTraits h, runTraits]
  apply stops_iff
  · intro a b same
    exact Error.unusedTraits.inj same
  · exact examples_ne id

/-- The same for annotations, which come before traits. -/
theorem run_unusedAnnotations_iff (h : ReachesAnnotations target d)
    : run s target d = .error (.unusedAnnotations names)
      ↔ s.ignoreUnusedAnnotations = false ∧ names ≠ [] ∧ unusedAnnotations target d = names := by
  rw [run_eq, h.keys, ok_bind, h.targets, ok_bind]
  apply stops_iff
  · intro a b same
    exact Error.unusedAnnotations.inj same
  · unfold runTraits
    split
    · exact nofun
    · exact examples_ne id

end Raml.Review
