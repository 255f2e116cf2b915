import Raml.Proofs.Resolution.Filling
import Raml.Proofs.Resolution.Links
import Raml.Proofs.Resolution.Traversal
import Raml.Proofs.Tables
import Mathlib.Data.List.Nodup

/-! Runs: the tables that resolution passes through.

A declared type is completed with what its references are found to be at that time. What is found is
complete already, so it stays the same until the end: in the last table, every type inherits from
types of that table, except for those under resolution when it was reached.
-/

namespace Raml

/-- A type that has been filled is resolved. -/
theorem TypeNode.resolved_fillFrom (find : String → Option TypeNode) (t : TypeNode)
    : (t.fillFrom find).resolved = true := by
  cases resolved : t.resolved with
  | true => rwa [fillFrom_of_resolved resolved]
  | false =>
      rw [fillFrom_eq resolved]
      rfl

namespace Resolver

open Traversal (Completed)

/-- What a name is found to be, under resolution or not. -/
def find? (outer : String → Option TypeNode) (types : Types) (name : String) : Option TypeNode :=
  if isQualified name then outer name else Keyed.get? types name

/-- Finds nothing under the names of a chain. -/
def outside (chain : List String) (find : String → Option TypeNode) (name : String)
    : Option TypeNode :=
  if name ∈ chain then none else find name

/-- A name is found outside a chain if it is not on it. -/
theorem outside_eq_some_iff {chain : List String} {find : String → Option TypeNode} {name : String}
    {t : TypeNode}
    : outside chain find name = some t ↔ name ∉ chain ∧ find name = some t := by
  simp [outside]

/-- What a name is found to be stands in another library or in the table. -/
theorem find?_eq_some {outer : String → Option TypeNode} {types : Types} {name : String}
    {t : TypeNode} (h : find? outer types name = some t)
    : (isQualified name = true ∧ outer name = some t)
      ∨ (isQualified name = false ∧ Keyed.get? types name = some t) := by
  unfold find? at h
  split at h
  · exact .inl ⟨‹_›, h⟩
  · exact .inr ⟨Bool.eq_false_iff.mpr ‹_›, h⟩

/-- A name that was looked up: it is found elsewhere, under resolution, or completed. -/
def Settled (outer : String → Option TypeNode) (done : Completed) (chain : List String)
    (name : String) : Prop :=
  (isQualified name = true ∧ (outer name).isSome) ∨ name ∈ chain ∨ name ∈ done.keys

variable {outer : String → Option TypeNode} {declared : Types}

/-- The tables on the way from the declared types to the resolved ones, with the names completed so
far. -/
inductive Run (outer : String → Option TypeNode) (declared : Types) : Completed → Types → Prop where
  | start : Run outer declared [] declared
  | complete {done : Completed} {types : Types} {chain : List String} {name : String} {t : TypeNode}
      (run : Run outer declared done types) (found : own? declared name = some t)
      (new : name ∉ done.keys) (path : (chain ++ [name]).IsChain (Refers declared))
      (acyclic : ¬OnBaseCycle declared name)
      (settled : ∀ other ∈ t.references, Settled outer done (chain ++ [name]) other)
      : Run outer declared (done ++ [(name, chain)])
          (Keyed.insert types name (t.fillFrom (outside (chain ++ [name]) (find? outer types))))

@[simp] theorem keys_concat (done : Completed) (name : String) (chain : List String)
    : Keyed.keys (done ++ [(name, chain)]) = done.keys ++ [name] := by
  simp [Keyed.keys]

/-- What is settled stays so as more is completed. -/
theorem Settled.mono {done later : Completed} {chain : List String} {name : String}
    (h : Settled outer done chain name) (more : done <+: later)
    : Settled outer later chain name :=
  h.imp_right fun inside => inside.imp_right fun member => (more.map Prod.fst).subset member

/-- A name that is settled neither elsewhere nor as under resolution is completed. -/
theorem Settled.completed {done : Completed} {chain : List String} {name : String}
    (h : Settled outer done chain name) (unqualified : isQualified name = false)
    (free : name ∉ chain)
    : name ∈ done.keys := by
  rcases h with ⟨qualified, -⟩ | under | completed
  · simp [unqualified] at qualified
  · exact absurd under free
  · exact completed

namespace Run

variable {done : Completed} {types : Types}

/-- Only the library's own types are completed. -/
theorem isSome (run : Run outer declared done types) {name : String} (h : name ∈ done.keys)
    : (own? declared name).isSome := by
  induction run with
  | start => cases h
  | complete _ found _ _ _ _ ih =>
      rw [keys_concat] at h
      rcases List.mem_append.mp h with earlier | last
      · exact ih earlier
      · cases List.mem_singleton.mp last
        simp [found]

/-- No entry is added, taken out or moved. -/
theorem keys_eq (run : Run outer declared done types)
    : Keyed.keys types = Keyed.keys declared := by
  induction run with
  | start => rfl
  | @complete _ _ _ name _ run found _ _ _ _ ih =>
      have present : (Keyed.get? declared name).isSome := by simp [(own?_eq_some.mp found).2]
      rw [Keyed.keys_insert _ (ih ▸ Keyed.get?_isSome_iff.mp present), ih]

/-- What is not completed is as it was declared. -/
theorem get?_new (run : Run outer declared done types) {name : String} (h : name ∉ done.keys)
    : Keyed.get? types name = Keyed.get? declared name := by
  induction run with
  | start => rfl
  | complete run found _ _ _ _ ih =>
      rw [keys_concat, List.mem_append, not_or] at h
      rw [Keyed.get?_insert, if_neg fun same => h.2 (by simp [same]), ih h.1]

/-- What holds of declared types and of what they are filled to holds of all types: bases are found
in another library or among what has been completed before. -/
theorem forall_types {P : TypeNode → Prop} (run : Run outer declared done types)
    (start : ∀ entry ∈ declared, P entry.2)
    (filled : ∀ t find, P t
      → (∀ name base, find name = some base
        → (isQualified name = true ∧ outer name = some base) ∨ P base)
      → P (t.fillFrom find))
    : ∀ entry ∈ types, P entry.2 := by
  induction run with
  | start => exact start
  | @complete _ types chain name t _ found _ _ _ _ ih =>
      intro entry member
      rcases Keyed.mem_insert member with rfl | earlier
      · refine filled t _ (start _ (Keyed.mem_of_get? (own?_eq_some.mp found).2)) ?_
        intro other base answer
        exact (find?_eq_some (outside_eq_some_iff.mp answer).2).imp_right fun found =>
          ih _ (Keyed.mem_of_get? found.2)
      · exact ih entry earlier

/-- Types are related to what was declared, entry by entry, if filling keeps to the relation. -/
theorem related {R : TypeNode → TypeNode → Prop} (run : Run outer declared done types)
    (refl : ∀ t, R t t)
    (filled : ∀ types chain t, Keyed.Related R declared types
      → R t (t.fillFrom (outside chain (find? outer types))))
    : Keyed.Related R declared types := by
  induction run with
  | start => exact List.forall₂_same.mpr fun entry _ => ⟨rfl, refl entry.2⟩
  | complete _ found _ _ _ _ ih =>
      exact ih.insert (own?_eq_some.mp found).2 (filled _ _ _ ih)

/-- No name is completed twice. -/
theorem nodup (run : Run outer declared done types) : done.keys.Nodup := by
  induction run with
  | start => exact List.nodup_nil
  | complete run found new _ _ _ ih =>
      rw [keys_concat, ← List.concat_eq_append]
      exact List.Nodup.concat new ih

end Run

/-- What a name is found to be does not change once it is settled. -/
theorem outside_find?_insert {done : Completed} {types : Types} {chain : List String}
    {name other : String} {t : TypeNode} (settled : Settled outer done chain other)
    (new : name ∉ done.keys)
    : outside chain (find? outer (Keyed.insert types name t)) other
      = outside chain (find? outer types) other := by
  unfold outside find?
  split
  · rfl
  · rename_i free
    split
    · rfl
    · rename_i unqualified
      have completed := settled.completed (Bool.eq_false_iff.mpr unqualified) free
      rw [Keyed.get?_insert, if_neg]
      rintro rfl
      exact new completed

/-- What a run leaves under a name that it has completed. -/
structure Completion (outer : String → Option TypeNode) (declared : Types) (done : Completed)
    (types : Types) (name : String) (chain : List String) (t : TypeNode) : Prop where
  found : own? declared name = some t
  entry : Keyed.get? types name
    = some (t.fillFrom (outside (chain ++ [name]) (find? outer types)))
  path : (chain ++ [name]).IsChain (Refers declared)
  acyclic : ¬OnBaseCycle declared name
  settled : ∀ other ∈ t.references, Settled outer done (chain ++ [name]) other

namespace Run

variable {done : Completed} {types : Types}

/-- Every completed type inherits from the types of the table that the run has come to. -/
theorem completion (run : Run outer declared done types) {name : String} {chain : List String}
    (member : (name, chain) ∈ done)
    : ∃ t, Completion outer declared done types name chain t := by
  induction run with
  | start => cases member
  | @complete done types under last t run found new path acyclic settled ih =>
      have more : done <+: done ++ [(last, under)] := List.prefix_append _ _
      rcases List.mem_append.mp member with earlier | same
      · obtain ⟨t', completed⟩ := ih earlier
        have other : last ≠ name := by
          rintro rfl
          exact new (List.mem_map.mpr ⟨_, earlier, rfl⟩)
        -- Neither the entry nor what its references are found to be is touched.
        refine ⟨t', completed.found, ?_, completed.path, completed.acyclic,
          fun other mentioned => (completed.settled other mentioned).mono more⟩
        rw [Keyed.get?_insert, if_neg other, completed.entry]
        exact congrArg some (TypeNode.fillFrom_congr t' fun other mentioned =>
          (outside_find?_insert (completed.settled other mentioned) new).symm)
      · cases List.mem_singleton.mp same
        refine ⟨t, found, ?_, path, acyclic,
          fun other mentioned => (settled other mentioned).mono more⟩
        rw [Keyed.get?_insert, if_pos rfl]
        exact congrArg some (TypeNode.fillFrom_congr t fun other mentioned =>
          (outside_find?_insert (settled other mentioned) new).symm)

/-- A run has been at whatever was completed first. -/
theorem of_prefix {earlier : Completed} (run : Run outer declared done types)
    (within : earlier <+: done)
    : ∃ types', Run outer declared earlier types' := by
  induction run with
  | start =>
      cases List.prefix_nil.mp within
      exact ⟨_, .start⟩
  | complete run found new path acyclic settled ih =>
      rcases List.prefix_concat_iff.mp within with rfl | before
      · exact ⟨_, .complete run found new path acyclic settled⟩
      · exact ih before

/-- A statement holds of all completed names if it goes from the names that were completed before to
the name that refers to them. -/
theorem induct {P : String → Prop} (run : Run outer declared done types)
    (step : ∀ name chain t, Completion outer declared done types name chain t
      → (name, chain) ∈ done
      → (∀ other ∈ t.references, isQualified other = false → other ∉ chain ++ [name] → P other)
      → P name)
    : ∀ name ∈ done.keys, P name := by
  -- The induction is on the run, but a name is completed with respect to the run as a whole.
  suffices upTo : ∀ {done' types'}, Run outer declared done' types' → done' <+: done
      → ∀ name ∈ done'.keys, P name from upTo run (List.prefix_refl _)
  intro done' types' run'
  induction run' with
  | start =>
      intro _ name member
      cases member
  | @complete done' types' chain last t _ found new path acyclic settled ih =>
      intro within name member
      have before := ih ((List.prefix_append _ _).trans within)
      rw [keys_concat] at member
      rcases List.mem_append.mp member with earlier | same
      · exact before name earlier
      · cases List.mem_singleton.mp same
        have inside : (last, chain) ∈ done := within.subset (by simp)
        obtain ⟨t', completed⟩ := run.completion inside
        cases found.symm.trans completed.found
        refine step last chain t completed inside fun other mentioned unqualified free => ?_
        exact before other ((settled other mentioned).completed unqualified free)

/-- What is completed stays as it is when the run goes on. -/
theorem get?_stable {later : Completed} {types' : Types} (run : Run outer declared done types)
    (run' : Run outer declared later types') (more : done <+: later)
    : ∀ name ∈ done.keys, Keyed.get? types' name = Keyed.get? types name := by
  refine run.induct fun name chain t before member ih => ?_
  obtain ⟨t', after⟩ := run'.completion (more.subset member)
  cases before.found.symm.trans after.found
  rw [before.entry, after.entry]
  refine congrArg some (TypeNode.fillFrom_congr t fun other mentioned => ?_)
  unfold outside find?
  split
  · rfl
  · rename_i free
    split
    · rfl
    · exact ih other mentioned (by simpa using ‹¬isQualified other = true›) free

/-- What has been found for a settled name is found at all later times. -/
theorem outside_stable {later : Completed} {types' : Types} (run : Run outer declared done types)
    (run' : Run outer declared later types') (more : done <+: later) {chain : List String}
    {name : String} (settled : Settled outer done chain name)
    : outside chain (find? outer types') name = outside chain (find? outer types) name := by
  unfold outside find?
  split
  · rfl
  · rename_i free
    split
    · rfl
    · rename_i unqualified
      have completed := settled.completed (Bool.eq_false_iff.mpr unqualified) free
      exact run.get?_stable run' more name completed

end Run

end Resolver

end Raml
