import Raml.Proofs.Checking.Unused
import Raml.Proofs.Traits.Kept
import Raml.Proofs.Traits.Written

/-! Traits that are declared and never used: parsing names those, and no others.
-/

namespace Raml

open Yaml (Node)

variable {target : Target} {d d' : Document}

/-- What a review calls unused is declared in the document as it was written and used nowhere in it,
if traits are the same as then. -/
theorem Document.KeepsUses.mem_unusedTraits_iff (keeps : d.KeepsUses target d')
    (plain : d.PlainTraits) {name : String}
    : name ∈ Review.unusedTraits target d' ↔ d.DeclaresTrait name ∧ ¬d.UsesTrait name := by
  have declares : name ∈ Review.declaredNames (fun l => Keyed.keys l.traits) d'.library
      ↔ d'.DeclaresTrait name :=
    Library.mem_declaredNames_iff
  rw [Review.unusedTraits, Review.mem_unused_iff, declares, keeps.declares_iff,
    keeps.mem_traitsUsed_iff, plain.mem_traitsUsed_iff]

namespace Parser

variable {p : Parser} {mediaTypes : Option (List String)} {d₀ n f s : Document}

/-- Parsing fails for unused traits if there are any and they are not ignored. Then it lists, in
order and once each, the full names of the traits that are declared somewhere in the document or in
its libraries and that are written as a use nowhere in them. Filling in traits neither adds a use
nor hides one. -/
theorem resolve_unusedTraits_iff (written : d₀.Written) (loads : p.Loads d₀ d)
    (phases : p.Phases target mediaTypes d n f s d')
    (reaches : Review.ReachesTraits p.settings target d')
    : ((∃ names, p.resolve target mediaTypes d₀ = .error (.unusedTraits names))
        ↔ p.settings.ignoreUnusedTraits = false
          ∧ ∃ name, d.DeclaresTrait name ∧ ¬d.UsesTrait name)
      ∧ (∀ names, p.resolve target mediaTypes d₀ = .error (.unusedTraits names)
        → names.Pairwise (· < ·)
          ∧ ∀ name, name ∈ names ↔ d.DeclaresTrait name ∧ ¬d.UsesTrait name)
      ∧ ∀ name, name ∈ (s.sites target).flatMap Review.traitsUsed
        ↔ name ∈ (f.sites target).flatMap Review.traitsUsed := by
  have plain := written.plainTraits loads
  have filled : d.KeepsTraits target f :=
    (Document.KeepsTraits.of_normalize phases.normal).trans (.of_fill phases.filled)
  have substituted : f.KeepsUses target s :=
    .of_fillTraits (filled.bare plain.bareUses) phases.substituted
  have finished : s.KeepsTraits target d' := .of_finish phases.finished
  have keeps : d.KeepsUses target d' := (filled.uses.trans substituted).trans finished.uses
  have fails (names : List String)
      : p.resolve target mediaTypes d₀ = .error (.unusedTraits names)
        ↔ p.settings.ignoreUnusedTraits = false ∧ names ≠ []
          ∧ Review.unusedTraits target d' = names :=
    (phases.resolve_error_iff loads).trans (Review.run_unusedTraits_iff reaches)
  refine ⟨?_, ?_, fun name => substituted.mem_traitsUsed_iff⟩
  · constructor
    · rintro ⟨names, failed⟩
      obtain ⟨shown, some, rfl⟩ := (fails names).mp failed
      obtain ⟨name, member⟩ := List.exists_mem_of_ne_nil _ some
      exact ⟨shown, name, (keeps.mem_unusedTraits_iff plain).mp member⟩
    · rintro ⟨shown, name, unused⟩
      have member := (keeps.mem_unusedTraits_iff plain).mpr unused
      exact ⟨_, (fails _).mpr ⟨shown, List.ne_nil_of_mem member, rfl⟩⟩
  · intro names failed
    obtain ⟨-, -, rfl⟩ := (fails names).mp failed
    exact ⟨Review.pairwise_unused, fun name => keeps.mem_unusedTraits_iff plain⟩

/-- A document of two traits, one of which is used by a resource. -/
def shelf : Node :=
  .map [(.str "title", .str "Shelf"),
    (.str "traits", .map [(.str "sorted", .null), (.str "paged", .null)]),
    (.str "/books", .map [(.str "is", .str "paged")])]

/-- The trait that is not used is the one that is reported. -/
theorem resolve_unusedTraits_shelf
    : ∃ d₀ d n f s d' : Document, d₀.Written ∧ ({} : Parser).Loads d₀ d
        ∧ ({} : Parser).Phases .api (some d₀.mediaType) d n f s d'
        ∧ Review.ReachesTraits {} .api d'
        ∧ ({} : Parser).resolve .api (some d₀.mediaType) d₀ = .error (.unusedTraits ["sorted"])
        ∧ ∀ name, name = "sorted" ↔ d.DeclaresTrait name ∧ ¬d.UsesTrait name := by
  obtain ⟨d₀, d, n, f, s, d', written, loads, phases, checked⟩ := by
    apply exists_phases (p := {}) shelf fun _ d' =>
      decide (Review.ReachesTraits {} .api d' ∧ Review.unusedTraits .api d' = ["sorted"])
    decide +kernel
  obtain ⟨reaches, unused⟩ := of_decide_eq_true checked
  have failed : ({} : Parser).resolve .api (some d₀.mediaType) d₀
      = .error (.unusedTraits ["sorted"]) :=
    (phases.resolve_error_iff loads).mpr
      ((Review.run_unusedTraits_iff reaches).mpr ⟨rfl, List.cons_ne_nil _ _, unused⟩)
  have names := (resolve_unusedTraits_iff written loads phases reaches).2.1 _ failed
  refine ⟨d₀, d, n, f, s, d', written, loads, phases, reaches, failed, fun name => ?_⟩
  exact List.mem_singleton.symm.trans (names.2 name)

end Parser

end Raml
