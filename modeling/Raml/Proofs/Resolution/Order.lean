import Raml.Check
import Raml.Proofs.Decoding

/-! What depends on the order in which types are declared.

Whether a library can be resolved does not, and neither does the resolved declaration of a type that
leads to no two types which refer to each other. Where two types do, resolution cuts off a reference
of the one that it completes first.
-/

namespace Raml

open Resolver
open Relation (TransGen ReflTransGen)

namespace Resolver

variable {types types' : Types}

/-- Where no name is declared twice, the order does not show in what a name stands for. -/
theorem own?_perm (unique : (Keyed.keys types).Nodup) (perm : types.Perm types')
    : own? types' = own? types := by
  funext name
  rw [own?, own?, Keyed.get?_perm unique perm]

/-- It does not show in references. -/
theorem refers_perm (unique : (Keyed.keys types).Nodup) (perm : types.Perm types')
    : Refers types' = Refers types := by
  unfold Refers
  rw [own?_perm unique perm]

/-- It does not show in base cycles. -/
theorem onBaseCycle_perm (unique : (Keyed.keys types).Nodup) (perm : types.Perm types')
    : OnBaseCycle types' = OnBaseCycle types := by
  unfold OnBaseCycle BaseLink
  rw [own?_perm unique perm]

/-- Two types that refer to each other, at once or through other types. -/
structure Knot (types : Types) (name other : String) : Prop where
  distinct : name ≠ other
  there : TransGen (Refers types) name other
  back : TransGen (Refers types) other name

/-- A type leads to no two types that refer to each other. -/
def Untangled (types : Types) (name : String) : Prop :=
  ∀ a b, ReflTransGen (Refers types) name a → ¬Knot types a b

/-- What an untangled type refers to is untangled. -/
theorem Untangled.refers {name other : String} (h : Untangled types name)
    (refers : Refers types name other)
    : Untangled types other :=
  fun a b reaches => h a b (.head refers reaches)

/-- An untangled type is cut off from itself at most. -/
theorem Untangled.mem_trail_iff {name other : String} {trail : List String}
    (h : Untangled types name) (refers : Refers types name other)
    (path : (trail ++ [name]).IsChain (Refers types))
    : other ∈ trail ++ [name] ↔ other = name := by
  refine ⟨fun member => ?_, fun same => by simp [same]⟩
  rcases List.mem_append.mp member with under | last
  · by_contra distinct
    exact h name other .refl ⟨Ne.symm distinct, .single refers, reaches_of_path path under⟩
  · exact List.mem_singleton.mp last

end Resolver

namespace TypeNode

/-- Links depend on the declarations that are found, and on nothing else. -/
theorem linkAnnotations_congr {l m : Library} (h : l.getAnnotationType? = m.getAnnotationType?)
    (t : TypeNode)
    : t.linkAnnotations l = t.linkAnnotations m := by
  induction t using induct with
  | step t ih =>
      have link : Annotation.link l = Annotation.link m := by
        funext a
        unfold Annotation.link
        rw [h]
      have properties : t.properties.mapTypes (linkAnnotations l)
          = t.properties.mapTypes (linkAnnotations m) := by
        refine List.map_congr_left fun ⟨key, p⟩ member => ?_
        simp only [ih key p member]
      rw [linkAnnotations_eq, linkAnnotations_eq, link, properties]

end TypeNode

namespace Library

variable {l r r' : Library} {types' : Types}

theorem withTypes_withTypes (l : Library) (types : Types)
    : (l.withTypes types).withTypes l.types = l := by
  cases l
  rfl

theorem getAnnotationType?_withTypes (l : Library) (types : Types)
    : (l.withTypes types).getAnnotationType? = l.getAnnotationType? := by
  funext name
  simp only [getAnnotationType?, qualified?]
  cases (TypeName.parts name).dropLast <;> rfl

/-- The same types are found in any order. -/
theorem getType?_perm (unique : (Keyed.keys l.types).Nodup) (perm : l.types.Perm types')
    : (l.withTypes types').getType? = l.getType? := by
  funext name
  cases qualified : isQualified name with
  | false =>
      rw [getType?_of_unqualified _ qualified, l.getType?_of_unqualified qualified]
      exact (Keyed.get?_perm unique perm name).symm
  | true => exact getType?_of_qualified (l := l.withTypes types') (m := l) rfl qualified

/-- A library that can be resolved can be resolved in any order of declaration. -/
theorem resolve_perm (unique : (Keyed.keys l.types).Nodup) (perm : l.types.Perm types')
    (ok : l.resolve = .ok r)
    : ∃ r', (l.withTypes types').resolve = .ok r' := by
  have sound := l.resolve_iff.mp ⟨r, ok⟩
  refine (l.withTypes types').resolve_iff.mpr fun m inside => ?_
  cases inside with
  | used member inside => exact sound m (.used member inside)
  | self =>
      obtain ⟨⟨types, annotations⟩, acyclic⟩ := sound l (.self l)
      have same := getType?_perm unique perm
      refine ⟨⟨fun name other refers => ?_, ?_⟩, fun name cyclic => acyclic name ?_⟩
      · rw [same]
        exact types name other (refers_perm unique perm ▸ refers)
      · rw [same]
        exact annotations
      · exact onBaseCycle_perm unique perm ▸ cyclic

section Entries

variable (unique : (Keyed.keys l.types).Nodup) (perm : l.types.Perm types')
variable (ok : l.resolve = .ok r) (ok' : (l.withTypes types').resolve = .ok r')

include ok ok' in
/-- Libraries in use are resolved before, so the order does not matter to them. -/
theorem uses_perm : r'.uses = r.uses :=
  Except.ok.inj ((resolution_of_resolve ok').uses.symm.trans (resolution_of_resolve ok).uses)

include ok ok' in
/-- Annotations are linked to the same declarations. -/
theorem linkAnnotations_perm (t : TypeNode)
    : t.linkAnnotations ((l.withTypes types').withUses r'.uses)
      = t.linkAnnotations (l.withUses r.uses) := by
  rw [uses_perm ok ok']
  exact TypeNode.linkAnnotations_congr ((l.withUses r.uses).getAnnotationType?_withTypes types') t

include unique perm ok ok'

/-- By induction on the entries that the type is filled from. -/
theorem entry_perm_of_own? {name : String} {t : TypeNode} (found : own? l.types name = some t)
    (untangled : Untangled l.types name)
    : Keyed.get? r'.types name = Keyed.get? r.types name := by
  refine entry_induct ok (P := fun name => Untangled l.types name
    → Keyed.get? r'.types name = Keyed.get? r.types name)
    (fun name t found before untangled => ?_) found untangled
  have found' : own? (l.withTypes types').types name = some t :=
    (congrFun (own?_perm unique perm) name).trans found
  have path' : (trail (l.withTypes types').types name ++ [name]).IsChain (Refers l.types) :=
    refers_perm unique perm ▸ trail_path ok' found'
  rw [entry_of_own? ok found, entry_of_own? ok' found', linkAnnotations_perm ok ok']
  refine congrArg some (TypeNode.fillFrom_congr _ fun other mentioned => ?_)
  rw [TypeNode.references_linkAnnotations] at mentioned
  have refers : Refers l.types name other := ⟨t, found, mentioned⟩
  by_cases itself : other = name
  · simp [outside, itself]
  -- Trails depend on the order, but they hold nothing that an untangled type refers to.
  · have free := mt (untangled.mem_trail_iff refers (trail_path ok found)).mp itself
    have free' := mt (untangled.mem_trail_iff refers path').mp itself
    rw [outside, outside, if_neg free, if_neg free']
    cases qualified : isQualified other with
    | true => exact getType?_of_qualified (uses_perm ok ok') qualified
    | false =>
        rw [getType?_of_unqualified _ qualified, getType?_of_unqualified _ qualified]
        exact before other mentioned qualified free (untangled.refers refers)

/-- A resolved type that leads to no two types which refer to each other is the same in any order of
declaration. -/
theorem entry_perm {name : String} (untangled : Untangled l.types name)
    : Keyed.get? r'.types name = Keyed.get? r.types name := by
  have same : Keyed.get? types' name = Keyed.get? l.types name :=
    (Keyed.get?_perm unique perm name).symm
  cases declared : Keyed.get? l.types name with
  | none =>
      rw [declared] at same
      rw [Keyed.get?_eq_none_iff] at declared same
      rw [Keyed.get?_eq_none_iff.mpr, Keyed.get?_eq_none_iff.mpr]
      · rwa [(resolution_of_resolve ok).keys_eq]
      · rwa [(resolution_of_resolve ok').keys_eq]
  | some t =>
      cases qualified : isQualified name with
      | true =>
          rw [entry_of_qualified ok qualified declared,
            entry_of_qualified ok' qualified (same.trans declared), linkAnnotations_perm ok ok']
      | false =>
          exact entry_perm_of_own? unique perm ok ok' (own?_eq_some.mpr ⟨qualified, declared⟩)
            untangled

end Entries

/-- In a document that was decoded no type is declared twice, so all that is needed for a type to come
out the same in any order is that it leads to no two types which refer to each other. -/
theorem entry_perm_of_decoded {node : Yaml.Node} {d : Document}
    (decoded : Decode.document node = .ok d) (perm : d.library.types.Perm types')
    (ok : d.library.resolve = .ok r) (ok' : (d.library.withTypes types').resolve = .ok r')
    {name : String} (untangled : Untangled d.library.types name)
    : Keyed.get? r'.types name = Keyed.get? r.types name :=
  entry_perm ((Decode.document_ready decoded).2 _ (.self _)) perm ok ok' untangled

end Library

end Raml
