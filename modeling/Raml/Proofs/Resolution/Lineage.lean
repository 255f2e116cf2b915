import Raml.Proofs.Resolution.Cycles

/-! Lineages: a declared type, its base, the base of that, and so on, across libraries.

In a resolved library, every entry is its declaration filled from the entries that its references
lead to, where no reference is to a type that was under resolution.
-/

namespace Raml.Library

open Resolver
open Relation (TransGen)

/-- All declared types, here and in the libraries within, are as they are decoded. -/
def FreshTypes (l : Library) : Prop :=
  ∀ m, Within m l → ∀ name t, Keyed.get? m.types name = some t → t.Fresh

/-- Of a library that uses none only its own types have to be fresh. -/
theorem freshTypes_of_alone {l : Library} (alone : l.uses = [])
    (fresh : ∀ entry ∈ l.types, entry.2.Fresh)
    : l.FreshTypes := by
  intro m inside name t found
  cases inside with
  | self => exact fresh (name, t) (Keyed.mem_of_get? found)
  | used member =>
      rw [alone] at member
      cases member

-----------------------------------------------------------------------------------------
-- Entries
-----------------------------------------------------------------------------------------

variable {l r : Library}

/-- What is found in the last table is what the resolved library finds. -/
theorem find?_resolved (r : Library)
    : find? (l.withUses r.uses).getType? r.types = r.getType? := by
  rw [find?_getType?]
  exact funext fun name =>
    getType?_congr (l := (l.withUses r.uses).withTypes r.types) (m := r) rfl rfl name

/-- A declared type has its annotations linked before it is resolved. -/
theorem linked_of_own? (uses : Uses) {name : String} {t : TypeNode}
    (found : own? l.types name = some t)
    : own? (l.withUses uses).linkedTypes name = some (t.linkAnnotations (l.withUses uses)) := by
  rw [own?_linkedTypes]
  exact Option.map_eq_some_iff.mpr ⟨t, found, rfl⟩

/-- Linking annotations changes no trail. -/
theorem trail_linkedTypes (uses : Uses) (name : String)
    : trail (l.withUses uses).linkedTypes name = trail l.types name := by
  rw [trail, order_linkedTypes]
  rfl

/-- A declared type ends up with what it inherits from resolved types, but for those that were under
resolution when it was reached. -/
theorem entry_of_own? (ok : l.resolve = .ok r) {name : String} {t : TypeNode}
    (found : own? l.types name = some t)
    : Keyed.get? r.types name = some ((t.linkAnnotations (l.withUses r.uses)).fillFrom
        (outside (trail l.types name ++ [name]) r.getType?)) := by
  have run := (resolution_of_resolve ok).linkedRun
  have entry := (run.completion_of_own? (linked_of_own? r.uses found)).entry
  rwa [trail_linkedTypes, find?_resolved] at entry

/-- Each type on a trail refers to the next one, and the last one to the type that is reached. -/
theorem trail_path (ok : l.resolve = .ok r) {name : String} {t : TypeNode}
    (found : own? l.types name = some t)
    : (trail l.types name ++ [name]).IsChain (Refers l.types) := by
  have run := (resolution_of_resolve ok).linkedRun
  have path := (run.completion_of_own? (linked_of_own? r.uses found)).path
  rw [trail_linkedTypes] at path
  exact path.imp fun _ _ => (l.withUses r.uses).refers_linkedTypes.mp

/-- The type that is declared first has no trail and is on that of every type it leads to. -/
theorem trail_of_first (ok : l.resolve = .ok r) {first : String} {names : List String}
    (h : undotted (Keyed.keys l.types) = first :: names)
    : trail l.types first = []
      ∧ ∀ name, TransGen (Refers l.types) first name → (own? l.types name).isSome
        → name ≠ first → first ∈ trail l.types name := by
  have run := (resolution_of_resolve ok).linkedRun
  have linked : Refers (l.withUses r.uses).linkedTypes = Refers l.types :=
    funext fun _ => funext fun _ => propext (l.withUses r.uses).refers_linkedTypes
  obtain ⟨root, under⟩ := run.trail_of_first (by rwa [keys_linkedTypes])
  rw [trail_linkedTypes] at root
  refine ⟨root, fun name reaches own distinct => ?_⟩
  rw [← trail_linkedTypes r.uses]
  exact under name (linked ▸ reaches) (by rwa [own?_linkedTypes, Option.isSome_map]) distinct

/-- A statement holds of all declared types if it goes to each of them from those that it refers to
and that were not under resolution when it was reached. -/
theorem entry_induct (ok : l.resolve = .ok r) {P : String → Prop}
    (step : ∀ name t, own? l.types name = some t
      → (∀ other ∈ t.references, isQualified other = false
        → other ∉ trail l.types name ++ [name] → P other)
      → P name)
    {name : String} {t : TypeNode} (found : own? l.types name = some t)
    : P name := by
  have run := (resolution_of_resolve ok).linkedRun
  refine run.induct (fun name chain linked completion member before => ?_) name
    (mem_keys_order (by simp [linked_of_own? r.uses found]))
  have same : trail l.types name = chain := by
    rw [← trail_linkedTypes r.uses, trail, Keyed.get?_of_mem run.nodup member]
    rfl
  have own := completion.found
  rw [own?_linkedTypes] at own
  obtain ⟨t, found, rfl⟩ := Option.map_eq_some_iff.mp own
  refine step name t found fun other mentioned unqualified free => ?_
  rw [same] at free
  exact before other (by rwa [TypeNode.references_linkAnnotations]) unqualified free

/-- A type whose own name has a point in it stays as it was declared. -/
theorem entry_of_qualified (ok : l.resolve = .ok r) {name : String} {t : TypeNode}
    (qualified : isQualified name = true) (found : Keyed.get? l.types name = some t)
    : Keyed.get? r.types name = some (t.linkAnnotations (l.withUses r.uses)) := by
  have run := (resolution_of_resolve ok).run
  rw [run.get?_new, linkedTypes, Keyed.get?_mapValues]
  · exact Option.map_eq_some_iff.mpr ⟨t, found, rfl⟩
  · intro completed
    simpa [own?_of_qualified qualified] using run.isSome completed

-----------------------------------------------------------------------------------------
-- Places and lineages
-----------------------------------------------------------------------------------------

/-- Libraries within those within are within. -/
theorem Within.trans {m n : Library} (h : Within n m) (h' : Within m l) : Within n l := by
  induction h' with
  | self => exact h
  | used member _ ih => exact .used member (ih h)

/-- A namespace stands for a library in use. -/
theorem mem_uses_of_namespace? {name : String} {used : Library} (h : l.namespace? name = some used)
    : (name, Use.loaded used) ∈ l.uses := by
  unfold namespace? at h
  split at h
  · rename_i library found
    cases h
    exact Keyed.mem_of_get? found
  · cases h

/-- Namespaces lead to libraries within. -/
theorem within_of_descend? {m : Library} {path : List String} (h : l.descend? path = some m)
    : Within m l := by
  induction path generalizing l with
  | nil =>
      cases h
      exact .self _
  | cons name path ih =>
      obtain ⟨used, first, rest⟩ := Option.bind_eq_some_iff.mp h
      exact .used (mem_uses_of_namespace? first) (ih rest)

/-- At least one namespace leads into a library in use. -/
theorem within_used_of_descend? {m : Library} {path : List String} (leaves : path ≠ [])
    (h : l.descend? path = some m)
    : ∃ name used, (name, Use.loaded used) ∈ l.uses ∧ Within m used := by
  obtain ⟨name, path, rfl⟩ := List.exists_cons_of_ne_nil leaves
  obtain ⟨used, first, rest⟩ := Option.bind_eq_some_iff.mp h
  exact ⟨name, used, mem_uses_of_namespace? first, within_of_descend? rest⟩

/-- The type of a place is declared there. -/
def Place.Declared (p : Place) : Prop := Keyed.get? p.library.types p.name = some p.type

/-- A name leads to a declared type in the library or in one within it. -/
theorem declared_of_place? {name : String} {p : Place} (h : l.place? name = some p)
    : Within p.library l ∧ p.Declared := by
  obtain ⟨descended, -, found⟩ := place?_eq_some_iff.mp h
  exact ⟨within_of_descend? descended, found⟩

/-- A name with a point leads into a library that is used. -/
theorem within_used_of_place? {name : String} {p : Place} (qualified : isQualified name = true)
    (h : l.place? name = some p)
    : ∃ key used, (key, Use.loaded used) ∈ l.uses ∧ Within p.library used :=
  within_used_of_descend? (dropLast_parts_ne_nil qualified) (place?_eq_some_iff.mp h).1

/-- Where the bases of a type are found: its base, the base of that and so on, to a type without a
base to look up. -/
inductive Place.Lineage : Place → List Place → Prop where
  | root {p : Place} (h : p.type.base? = none) : Lineage p []
  | base {p q : Place} {bases : List Place} {name : String} (h : p.type.base? = some name)
      (found : p.library.place? name = some q) (rest : Lineage q bases) : Lineage p (q :: bases)

end Raml.Library
