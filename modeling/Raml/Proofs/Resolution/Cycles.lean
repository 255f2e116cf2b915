import Raml.Proofs.Resolution.Libraries

/-! Which libraries can be resolved: those without undefined names and without cycles of base links.

Whether a type refers to itself through properties plays no part in it, and neither does the order
in which types are declared.
-/

namespace Raml.Library

open Resolver

/-- Whatever a declared type or the declaration of an annotation refers to, at any depth, is the
name of a declared type. -/
structure Defined (l : Library) : Prop where
  types : ∀ name other, Refers l.types name other → (l.getType? other).isSome
  annotations : ∀ entry ∈ l.annotationTypes, ∀ other ∈ entry.2.type.references,
    (l.getType? other).isSome

/-- A name is found among linked types if it is found in the library. -/
theorem isSome_find? {l : Library} {uses : Uses} (ok : resolveUses l.uses = .ok uses)
    (name : String)
    : (find? (l.withUses uses).getType? (l.withUses uses).linkedTypes name).isSome
      = (l.getType? name).isSome := by
  let linked := (l.withUses uses).withTypes (l.withUses uses).linkedTypes
  have keys : Keyed.keys linked.types = Keyed.keys l.types := keys_linkedTypes _
  rw [find?_getType?]
  exact isSome_getType? (r := linked) ok keys name

/-- All libraries within one that is resolved are resolved. -/
theorem Within.resolve {l m : Library} (inside : Within m l) {r : Library} (ok : l.resolve = .ok r)
    : ∃ r', m.resolve = .ok r' := by
  induction inside generalizing r with
  | self l => exact ⟨r, ok⟩
  | used member _ ih =>
      obtain ⟨_, resolved⟩ := resolve_of_mem_uses (resolution_of_resolve ok).uses member
      exact ih resolved

/-- In a library that is resolved, names are defined and no type is on a base cycle. -/
theorem Resolution.defined {l r : Library} (ok : l.resolve = .ok r)
    : l.Defined ∧ ∀ name, ¬OnBaseCycle l.types name := by
  have resolution := resolution_of_resolve ok
  have run := resolution.linkedRun
  refine ⟨⟨fun name other refers => ?_, fun entry member other mentioned => ?_⟩, fun name => ?_⟩
  · obtain ⟨t, found, mentioned⟩ := (l.withUses r.uses).refers_linkedTypes.mpr refers
    have isFound := (run.completion_of_own? found).isSome_find? run mentioned
    rwa [isSome_find? resolution.uses] at isFound
  · have isFound := resolution.annotations entry member other mentioned
    rwa [isSome_getType? resolution.uses resolution.keys_eq] at isFound
  · intro cyclic
    have linked := (l.withUses r.uses).onBaseCycle_linkedTypes.mpr cyclic
    obtain ⟨t, _, found, -⟩ := linked.base?
    exact (run.completion_of_own? found).acyclic linked

/-- A library is resolved exactly if, in it and in all libraries within it, names are defined and no
type is on a base cycle. -/
theorem resolve_iff (l : Library)
    : (∃ r, l.resolve = .ok r)
      ↔ ∀ m, Within m l → m.Defined ∧ ∀ name, ¬OnBaseCycle m.types name := by
  constructor
  · rintro ⟨r, ok⟩ m inside
    obtain ⟨r', resolved⟩ := inside.resolve ok
    exact Resolution.defined resolved
  · intro sound
    induction l using induct with
    | step l ih =>
        rcases resolve_cases l with ⟨r, ok, -⟩ | ⟨e, -, unresolved⟩
        · exact ⟨r, ok⟩
        · obtain ⟨defined, acyclic⟩ := sound l (.self l)
          -- Each way to fail contradicts what is assumed of the library or of one within it.
          cases unresolved with
          | used member failed =>
              obtain ⟨r, ok⟩ := ih _ _ member fun m inside => sound m (.used member inside)
              simp [ok] at failed
          | types ok failed =>
              cases failed with
              | @undefined name missing referred =>
                  obtain ⟨other, refers⟩ := referred
                  have found := defined.types _ _ ((l.withUses _).refers_linkedTypes.mp refers)
                  rw [← isSome_find? ok, missing] at found
                  cases found
              | cycle first last proper links =>
                  have cyclic := onBaseCycle_of_links links first last proper
                  exact absurd ((l.withUses _).onBaseCycle_linkedTypes.mp cyclic) (acyclic _)
          | @annotations uses types ok run failed =>
              obtain ⟨entry, member, name, mentioned, missing, -⟩ := failed
              have found := defined.annotations entry member name mentioned
              have keys : Keyed.keys types = Keyed.keys l.types :=
                run.keys_eq.trans (keys_linkedTypes _)
              rw [← isSome_getType? (r := (l.withUses uses).withTypes types) ok keys, missing]
                at found
              cases found

/-- A cycle that is reported is one of base links, in the library itself or in one within it. -/
theorem links_of_cyclicType (l : Library) {name : String} {chain : List String}
    (h : l.resolve = .error (.cyclicType name chain))
    : ∃ m, Within m l ∧ 1 < chain.length ∧ chain.head? = some name ∧ chain.getLast? = some name
        ∧ chain.IsChain (BaseLink m.types) := by
  induction l using induct with
  | step l ih =>
      cases unresolved_of_resolve h with
      | used member failed =>
          obtain ⟨m, inside, cycle⟩ := ih _ _ member failed
          exact ⟨m, .used member inside, cycle⟩
      | types ok failed =>
          cases failed with
          | cycle first last proper links =>
              have base := links.imp fun _ _ => (l.withUses _).baseLink_linkedTypes.mp
              exact ⟨l, .self l, proper, first, last, base⟩
      | annotations ok run failed =>
          obtain ⟨_, _, _, _, _, other⟩ := failed
          cases other

/-- Resolution succeeds exactly if names are defined and no type is its own base, directly or
through other bases; recursion through properties does not matter. Where it reports a cycle, the
chain starts and ends with the name that was met again, and each type in it has the next one as its
base. -/
theorem resolve_isOk_iff_and_cyclicType (l : Library)
    : ((∃ r, l.resolve = .ok r)
        ↔ ∀ m, Within m l → m.Defined ∧ ∀ name, ¬OnBaseCycle m.types name)
      ∧ ∀ name chain, l.resolve = .error (.cyclicType name chain)
        → ∃ m, Within m l ∧ 1 < chain.length ∧ chain.head? = some name
            ∧ chain.getLast? = some name ∧ chain.IsChain (BaseLink m.types) :=
  ⟨l.resolve_iff, fun _ _ reported => l.links_of_cyclicType reported⟩

end Raml.Library
