import Raml.Proofs.Decoding

/-! The kinds of resolved types.

A type has the kind at the end of its lineage, unless one of the types on the way was cut off from
its base: it was reached through properties of that base while the base was under resolution. Such a
type keeps the name of its base for a kind, and so do all types that inherit from it.
-/

namespace Raml.Library

open Resolver

namespace Place

/-- The type of a place does not inherit from its base: the place has a point in its name, or the
base is under resolution when the place is reached. -/
def CutOff (p : Place) : Prop :=
  ∃ base, p.type.base? = some base
    ∧ (isQualified p.name = true ∨ base ∈ trail p.library.types p.name)

/-- The kind that a name stands for at the end of a lineage. -/
def rootKind (p : Place) (bases : List Place) : Kind := .ofName (bases.getLastD p).type.baseName

/-- The kind at the end of a lineage is that at the end of the lineage of the base. -/
theorem rootKind_cons (p q : Place) (bases : List Place)
    : p.rootKind (q :: bases) = q.rootKind bases := by
  rw [rootKind, List.getLastD_cons]
  rfl

end Place

variable {l r : Library}

/-- A type that is cut off from its base keeps the kind that stands for the name of the base. -/
theorem kind_of_cutOff {p : Place} (ok : p.library.resolve = .ok r) (declared : p.Declared)
    (fresh : p.type.Fresh) (cut : p.CutOff)
    : ∃ t base, Keyed.get? r.types p.name = some t ∧ t.kind = .custom base := by
  obtain ⟨base, base?, inPlace⟩ := cut
  have custom : p.type.kind = .custom base := fresh.kind_of_base? base?
  cases qualified : isQualified p.name with
  | true =>
      refine ⟨_, base, entry_of_qualified ok qualified declared, ?_⟩
      rw [TypeNode.kind_linkAnnotations, custom]
  | false =>
      have under : base ∈ trail p.library.types p.name := by
        rcases inPlace with dotted | under
        · simp [qualified] at dotted
        · exact under
      refine ⟨_, base, entry_of_own? ok (own?_eq_some.mpr ⟨qualified, declared⟩), ?_⟩
      rw [TypeNode.kind_fillFrom (by simp [TypeNode.resolved_linkAnnotations, fresh.unresolved]),
        TypeNode.base?_linkAnnotations, base?, TypeNode.kind_linkAnnotations, custom]
      simp [outside, under]

/-- A type without a base has the kind that its name says. -/
theorem kind_of_root {p : Place} (ok : p.library.resolve = .ok r) (declared : p.Declared)
    (fresh : p.type.Fresh) (root : p.type.base? = none)
    : ∃ t, Keyed.get? r.types p.name = some t ∧ t.kind = .ofName p.type.baseName := by
  cases qualified : isQualified p.name with
  | true =>
      refine ⟨_, entry_of_qualified ok qualified declared, ?_⟩
      rw [TypeNode.kind_linkAnnotations, fresh.kind_eq]
  | false =>
      refine ⟨_, entry_of_own? ok (own?_eq_some.mpr ⟨qualified, declared⟩), ?_⟩
      rw [TypeNode.kind_fillFrom (by simp [TypeNode.resolved_linkAnnotations, fresh.unresolved]),
        TypeNode.base?_linkAnnotations, root, TypeNode.kind_linkAnnotations, fresh.kind_eq]
      rfl

/-- A type that is not cut off has the kind that its base has in its own library. -/
theorem kind_of_base {p : Place} (ok : p.library.resolve = .ok r) (declared : p.Declared)
    (fresh : p.type.Fresh) (inherits : ¬p.CutOff) {q : Place} {base : String}
    (base? : p.type.base? = some base) (found : p.library.place? base = some q)
    : ∃ t r' t', Keyed.get? r.types p.name = some t ∧ q.library.resolve = .ok r'
        ∧ Keyed.get? r'.types q.name = some t' ∧ t.kind = t'.kind := by
  have unqualified : isQualified p.name = false := by
    cases qualified : isQualified p.name with
    | false => rfl
    | true => exact absurd ⟨base, base?, Or.inl qualified⟩ inherits
  have own := own?_eq_some.mpr ⟨unqualified, declared⟩
  have free : base ∉ trail p.library.types p.name ++ [p.name] := by
    intro member
    rcases List.mem_append.mp member with under | same
    · exact inherits ⟨base, base?, Or.inr under⟩
    · have self : BaseLink p.library.types p.name p.name :=
        ⟨p.type, own, by rw [base?, List.mem_singleton.mp same]⟩
      exact (Resolution.defined ok).2 p.name (.single self)
  obtain ⟨t', heir, r', ok', entry⟩ := holds_of_place? ok found
  refine ⟨_, r', t', entry_of_own? ok own, ok', entry, ?_⟩
  rw [TypeNode.kind_fillFrom (by simp [TypeNode.resolved_linkAnnotations, fresh.unresolved]),
    TypeNode.base?_linkAnnotations, base?]
  simp [outside, free, heir]

/-- At the end of a lineage of places in libraries that are resolved, the kind of a built-in type
arrives exactly if no place on the way is cut off. -/
theorem Place.Lineage.kind {p : Place} {bases : List Place} (lineage : p.Lineage bases)
    (fresh : p.library.FreshTypes) (ok : p.library.resolve = .ok r) (declared : p.Declared)
    (builtIn : (p.rootKind bases).isBuiltIn = true)
    : ∃ t, Keyed.get? r.types p.name = some t
        ∧ (t.kind.isBuiltIn = true ↔ ∀ q ∈ p :: bases, ¬q.CutOff)
        ∧ (t.kind.isBuiltIn = true → t.kind = p.rootKind bases) := by
  induction lineage generalizing r with
  | @root p root =>
      obtain ⟨t, entry, kind⟩ := kind_of_root ok declared (fresh _ (.self _) _ _ declared) root
      have same : t.kind = p.rootKind [] := kind
      refine ⟨t, entry, ?_, fun _ => same⟩
      rw [same]
      refine ⟨fun _ q member cut => ?_, fun _ => builtIn⟩
      cases List.mem_singleton.mp member
      obtain ⟨base, base?, -⟩ := cut
      simp [root] at base?
  | @base p q bases name base? found rest ih =>
      have freshType := fresh _ (.self _) _ _ declared
      rw [rootKind_cons] at builtIn ⊢
      -- A type that is cut off keeps a name for a kind, whatever its base comes to.
      by_cases cut : p.CutOff
      · obtain ⟨t, name, entry, kind⟩ := kind_of_cutOff ok declared freshType cut
        have custom : ¬t.kind.isBuiltIn = true := by simp [kind, Kind.isBuiltIn]
        refine ⟨t, entry, ?_, fun isBuiltIn => absurd isBuiltIn custom⟩
        exact ⟨fun isBuiltIn => absurd isBuiltIn custom,
          fun none => absurd cut (none p List.mem_cons_self)⟩
      · obtain ⟨inside, declared'⟩ := declared_of_place? found
        obtain ⟨t, r', t', entry, ok', entry', same⟩ :=
          kind_of_base ok declared freshType cut base? found
        obtain ⟨_, found', iff, arrives⟩ :=
          ih (fun m within => fresh m (within.trans inside)) ok' declared' builtIn
        cases entry'.symm.trans found'
        refine ⟨t, entry, ?_, fun isBuiltIn => same.trans (arrives (same ▸ isBuiltIn))⟩
        rw [same, iff]
        exact ⟨fun none => List.forall_mem_cons.mpr ⟨cut, none⟩,
          fun all => (List.forall_mem_cons.mp all).2⟩

/-- In a library that was decoded, nothing has been inherited yet, so kinds arrive as they do at the
places of a lineage. -/
theorem kind_of_decoded {node : Yaml.Node} {path : String}
    (decoded : Decode.library node path = .ok l) (ok : l.resolve = .ok r) {name : String}
    {t : TypeNode} (declared : Keyed.get? l.types name = some t) {bases : List Place}
    (lineage : Place.Lineage ⟨l, name, t⟩ bases)
    (builtIn : (Place.rootKind ⟨l, name, t⟩ bases).isBuiltIn = true)
    : ∃ t', Keyed.get? r.types name = some t'
        ∧ (t'.kind.isBuiltIn = true ↔ ∀ p ∈ ⟨l, name, t⟩ :: bases, ¬Place.CutOff p)
        ∧ (t'.kind.isBuiltIn = true → t'.kind = Place.rootKind ⟨l, name, t⟩ bases) :=
  lineage.kind (Decode.library_ready decoded).1 ok declared builtIn

/-- Whatever other types refer to it, a type whose lineage ends in a built-in kind gets that kind,
and not a name for one, if and only if nothing in its lineage is cut off from its base. -/
theorem isBuiltIn_kind_iff_of_lineage (fresh : l.FreshTypes) (ok : l.resolve = .ok r)
    {name : String} {t : TypeNode} (declared : Keyed.get? l.types name = some t)
    {bases : List Place}
    (lineage : Place.Lineage ⟨l, name, t⟩ bases)
    (builtIn : (Place.rootKind ⟨l, name, t⟩ bases).isBuiltIn = true)
    : ∃ t', Keyed.get? r.types name = some t'
        ∧ (t'.kind = Place.rootKind ⟨l, name, t⟩ bases
          ↔ ∀ p ∈ ⟨l, name, t⟩ :: bases, ¬Place.CutOff p)
        ∧ (t'.kind.isBuiltIn = true ↔ ∀ p ∈ ⟨l, name, t⟩ :: bases, ¬Place.CutOff p) := by
  obtain ⟨t', entry, iff, arrives⟩ := lineage.kind fresh ok declared builtIn
  refine ⟨t', entry, ⟨fun same => iff.mp (same ▸ builtIn), fun none => ?_⟩, iff⟩
  exact arrives (iff.mpr none)

-----------------------------------------------------------------------------------------
-- A type that is extended by the type of its own property
-----------------------------------------------------------------------------------------

/-- `Y` is a string, and the type of its only property is `X`, which extends `Y`. -/
def extendedInProperty : Library :=
  { empty with
    types := [
      ("Y", (TypeNode.ofName "string").withProperties [("p", .ofName "p" "X")]),
      ("X", .ofName "Y")] }

/-- Nothing has inherited yet. -/
theorem freshTypes_extendedInProperty : extendedInProperty.FreshTypes := by
  refine freshTypes_of_alone rfl fun entry member => ?_
  simp only [extendedInProperty, List.mem_cons, List.not_mem_nil, or_false] at member
  rcases member with rfl | rfl
  · exact TypeNode.fresh_withProperty _ _ _
  · exact TypeNode.fresh_ofName _

/-- Where `X` is declared. -/
def placeOfX : Place := ⟨extendedInProperty, "X", .ofName "Y"⟩

/-- Where `Y` is declared. -/
def placeOfY : Place :=
  ⟨extendedInProperty, "Y", (TypeNode.ofName "string").withProperties [("p", .ofName "p" "X")]⟩

/-- The base of `X` is `Y`, which has none. -/
theorem lineage_placeOfX : placeOfX.Lineage [placeOfY] := by
  have base : placeOfX.type.base? = some "Y" := by rfl
  refine .base base ?_ (.root (by rfl))
  exact (place?_of_unqualified _ (by rfl)).trans rfl

theorem rootKind_placeOfX : placeOfX.rootKind [placeOfY] = .string := by rfl

/-- Resolution reaches `X` through the property of `Y` and leaves it with the name `Y` for a kind.
-/
theorem resolve_extendedInProperty
    : ∃ r, extendedInProperty.resolve = .ok r
        ∧ ∃ t, Keyed.get? r.types "X" = some t ∧ t.kind = .custom "Y" := by
  have kind : (extendedInProperty.resolve.toOption.bind fun r =>
      (Keyed.get? r.types "X").map TypeNode.kind) = some (.custom "Y") := by
    decide +kernel
  obtain ⟨r, ok, entry⟩ := Option.bind_eq_some_iff.mp kind
  exact ⟨r, ok_of_toOption ok, Option.map_eq_some_iff.mp entry⟩

/-- As `Y` is declared first, `X` is cut off from it. -/
theorem kind_iff_extendedInProperty
    : extendedInProperty.FreshTypes ∧ ∃ r, extendedInProperty.resolve = .ok r
        ∧ ∃ t, Keyed.get? r.types "X" = some t
          ∧ (t.kind = placeOfX.rootKind [placeOfY] ↔ ∀ p ∈ [placeOfX, placeOfY], ¬p.CutOff)
          ∧ (t.kind.isBuiltIn = true ↔ ∀ p ∈ [placeOfX, placeOfY], ¬p.CutOff) := by
  obtain ⟨r, ok, -⟩ := resolve_extendedInProperty
  have builtIn : (placeOfX.rootKind [placeOfY]).isBuiltIn = true := by rfl
  exact ⟨freshTypes_extendedInProperty, r, ok,
    isBuiltIn_kind_iff_of_lineage freshTypes_extendedInProperty ok rfl lineage_placeOfX builtIn⟩

/-- The kind at the end of a lineage does not always arrive: `X` is no string. -/
theorem not_rootKind_of_lineage
    : ¬∀ (l r : Library) (name : String) (t : TypeNode) (bases : List Place), l.FreshTypes
        → l.resolve = .ok r → Keyed.get? l.types name = some t
        → Place.Lineage ⟨l, name, t⟩ bases → (Place.rootKind ⟨l, name, t⟩ bases).isBuiltIn = true
        → ∃ t', Keyed.get? r.types name = some t'
          ∧ t'.kind = Place.rootKind ⟨l, name, t⟩ bases := by
  intro arrives
  obtain ⟨r, ok, t, entry, custom⟩ := resolve_extendedInProperty
  have builtIn : (placeOfX.rootKind [placeOfY]).isBuiltIn = true := by rfl
  obtain ⟨t', entry', kind⟩ := arrives _ r "X" _ _ freshTypes_extendedInProperty ok rfl
    lineage_placeOfX builtIn
  cases entry.symm.trans entry'
  have root : Place.rootKind _ _ = Kind.string := rootKind_placeOfX
  rw [custom] at kind
  cases kind.trans root

end Raml.Library
