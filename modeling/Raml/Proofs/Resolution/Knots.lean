import Raml.Proofs.Resolution.Order

/-! Knots: types that refer to each other, where the order of declaration shows.

The type that is declared first finds what it refers to resolved, the other one finds it cut off. A
reference that is cut off keeps the name of a declared type for a kind, which no resolved type does
that is declared under that name. References are meant to be cut off in properties; where no base
leads back to what extends it, no others are.
-/

namespace Raml

open Resolver
open Relation (TransGen ReflTransGen)

namespace TypeNode

/-- A name of a type written in place, without its brackets. -/
def InPlaceName (name : String) : Prop :=
  ∃ typeName, (TypeName.splitArray typeName).1 = name ∧ TypeName.isReference typeName = false

/-- A name that is looked up is not one that stands for its own kind. -/
theorem Fresh.not_inPlaceName_of_base? {t : TypeNode} (fresh : t.Fresh) {name : String}
    (base? : t.base? = some name)
    : ¬InPlaceName name := by
  rintro ⟨typeName, same, inPlace⟩
  obtain ⟨lookup, rfl⟩ := needsLookup_of_base? base?
  have reference : TypeName.isReference t.typeName = true := by
    simpa [isInline, TypeName.isInline] using (Bool.and_eq_true_iff.mp lookup).1
  rw [fresh.baseName_eq] at same
  rw [TypeName.isReference, ← same, ← TypeName.isReference, inPlace] at reference
  cases reference

/-- Nothing refers to types written in place. -/
theorem Fresh.not_inPlaceName {t : TypeNode} (fresh : t.Fresh)
    : ∀ name ∈ t.references, ¬InPlaceName name := by
  induction t using TypeNode.induct with
  | step t ih =>
      intro name mentioned
      rcases (mem_references fresh.unresolved).mp mentioned with base? | ⟨key, p, member, inside⟩
      · exact fresh.not_inPlaceName_of_base? base?
      · exact ih key p member (fresh.property member) name inside

/-- Before anything is inherited, a kind that is not known is the name of the base or that of a type
written in place. -/
theorem Fresh.base?_or_inPlaceName {t : TypeNode} (fresh : t.Fresh) {name : String}
    (custom : t.kind = .custom name)
    : t.base? = some name ∨ InPlaceName name := by
  have kind := fresh.kind_eq.symm.trans custom
  have same : t.baseName = name := by
    unfold Kind.ofName at kind
    split at kind <;> simp_all
  cases inPlace : t.isInline with
  | true => exact Or.inr ⟨t.typeName, by rw [← fresh.baseName_eq, same],
      by simpa [isInline, TypeName.isInline] using inPlace⟩
  | false =>
      left
      have lookup : t.needsLookup = true := by
        simp [needsLookup, inPlace, kind, Kind.isBuiltIn]
      simp [base?, fresh.unresolved, lookup, same]

/-- If the answers for a reference are of two kinds, then so are the types that come of them. -/
theorem kind_of_fillFrom_eq {f g : String → Option TypeNode} {t : TypeNode} (fresh : t.Fresh)
    (same : t.fillFrom f = t.fillFrom g)
    : ∀ name ∈ t.references,
        ((f name).map kind).getD (.custom name) = ((g name).map kind).getD (.custom name) := by
  induction t using induct with
  | step t ih =>
      intro name mentioned
      rcases (mem_references fresh.unresolved).mp mentioned with base? | ⟨key, p, member, inside⟩
      · have kinds := congrArg kind same
        rwa [kind_fillFrom fresh.unresolved, kind_fillFrom fresh.unresolved, base?,
          fresh.kind_of_base? base?] at kinds
      · have own (find : String → Option TypeNode)
            : (t.fillFrom find).properties = t.properties.mapTypes (fillFrom find) := by
          have occupied : t.object.isEmpty = false := by
            have some : t.object.properties ≠ [] := List.ne_nil_of_mem member
            simp [ObjectFacets.isEmpty, some]
          rw [fillFrom_eq fresh.unresolved]
          cases t.base?.bind find with
          | none => rfl
          | some base =>
              rw [filled_some, occupied]
              rfl
        have properties := (own f).symm.trans ((congrArg TypeNode.properties same).trans (own g))
        have entries := List.map_inj_left.mp properties (key, p) member
        exact ih key p member (fresh.property member)
          (congrArg (fun entry => entry.2.type) entries) name inside

/-- Linking annotations leaves a type fresh. -/
theorem Fresh.linkAnnotations (l : Library) {t : TypeNode} (fresh : t.Fresh)
    : (t.linkAnnotations l).Fresh := by
  induction t using TypeNode.induct with
  | step t ih =>
      refine fresh_iff.mpr ⟨by rw [resolved_linkAnnotations, fresh.unresolved], ?_, ?_⟩
      · have derived : (t.linkAnnotations l).deriveFromName
            = t.deriveFromName.linkAnnotations l := by
          rw [linkAnnotations_eq, linkAnnotations_eq]
          rfl
        rw [derived, (fresh_iff.mp fresh).2.1]
      · intro key p member
        rw [properties_linkAnnotations, Properties.mapTypes] at member
        obtain ⟨⟨_, q⟩, inside, same⟩ := List.mem_map.mp member
        cases same
        exact ih _ q inside (fresh.property inside)

end TypeNode

namespace Resolver

variable {types : Types}

/-- In a knot, one type refers to another one that leads back to it. -/
theorem Knot.refers {name other : String} (h : Knot types name other)
    : ∃ a b, a ≠ b ∧ Refers types a b ∧ TransGen (Refers types) b a := by
  obtain ⟨distinct, there, back⟩ := h
  induction there using TransGen.head_induction_on with
  | single refers => exact ⟨_, _, distinct, refers, back⟩
  | @head a b refers there ih =>
      by_cases same : a = b
      · exact ih (same ▸ distinct) (same ▸ back)
      · exact ⟨a, b, same, refers, there.trans back⟩

/-- The declared type of `name` refers to `other` through a property, at any depth. -/
def PropertyLink (types : Types) (name other : String) : Prop :=
  ∃ t, own? types name = some t ∧ t.resolved = false ∧ other ∈ propertyReferences t.properties

/-- Two types that refer to each other through properties, at once or through other types that do.
-/
structure PropertyKnot (types : Types) (name other : String) : Prop where
  distinct : name ≠ other
  there : TransGen (PropertyLink types) name other
  back : TransGen (PropertyLink types) other name

/-- No base leads back to a type that extends it. -/
def BasesApart (types : Types) : Prop :=
  ∀ name base, BaseLink types name base → ¬TransGen (Refers types) base name

theorem PropertyLink.refers {name other : String} (h : PropertyLink types name other)
    : Refers types name other := by
  obtain ⟨t, found, unresolved, inside⟩ := h
  refine ⟨t, found, ?_⟩
  rw [TypeNode.references_eq unresolved]
  exact List.mem_append_right _ inside

/-- What a type refers to is its base, or it goes through a property. -/
theorem Refers.baseLink_or_propertyLink {name other : String} (h : Refers types name other)
    : BaseLink types name other ∨ PropertyLink types name other := by
  obtain ⟨t, found, mentioned⟩ := h
  cases resolved : t.resolved with
  | true =>
      rw [TypeNode.references_def, resolved] at mentioned
      cases mentioned
  | false =>
      rw [TypeNode.references_eq resolved] at mentioned
      rcases List.mem_append.mp mentioned with base | inside
      · exact Or.inl ⟨t, found, Option.mem_toList.mp base⟩
      · exact Or.inr ⟨t, found, resolved, inside⟩

theorem PropertyKnot.knot {name other : String} (h : PropertyKnot types name other)
    : Knot types name other where
  distinct := h.distinct
  there := TransGen.mono (fun _ _ => PropertyLink.refers) _ _ h.there
  back := TransGen.mono (fun _ _ => PropertyLink.refers) _ _ h.back

/-- Where bases lead back to nothing that extends them, a way that can be gone back goes through
properties all along, by induction from its first link. -/
theorem BasesApart.properties (apart : BasesApart types) {name other : String}
    (there : TransGen (Refers types) name other) (back : TransGen (Refers types) other name)
    : TransGen (PropertyLink types) name other := by
  have link {a b : String} (refers : Refers types a b) (back : TransGen (Refers types) b a)
      : PropertyLink types a b :=
    refers.baseLink_or_propertyLink.resolve_left fun base => apart a b base back
  induction there using TransGen.head_induction_on with
  | single refers => exact .single (link refers back)
  | head refers there ih => exact .head (link refers (there.trans back)) (ih (back.tail refers))

theorem BasesApart.knot_iff (apart : BasesApart types) {name other : String}
    : Knot types name other ↔ PropertyKnot types name other :=
  ⟨fun knot => ⟨knot.distinct, apart.properties knot.there knot.back,
    apart.properties knot.back knot.there⟩, PropertyKnot.knot⟩

/-- Any type of the library can be declared first. -/
theorem exists_perm_first {name : String} (own : (own? types name).isSome)
    : ∃ types' names, types.Perm types' ∧ undotted (Keyed.keys types') = name :: names := by
  obtain ⟨t, found⟩ := Option.isSome_iff_exists.mp own
  obtain ⟨unqualified, declared⟩ := own?_eq_some.mp found
  obtain ⟨before, after, rfl⟩ := List.append_of_mem (Keyed.mem_of_get? declared)
  refine ⟨(name, t) :: (before ++ after), undotted (Keyed.keys (before ++ after)),
    List.perm_middle, ?_⟩
  simp [undotted, Keyed.keys, unqualified]

end Resolver

namespace Library

variable {l r : Library}

/-- In a library that uses none, names with points lead nowhere. -/
theorem unqualified_of_alone (alone : l.uses = []) (ok : l.resolve = .ok r) {name : String}
    {t : TypeNode} (found : r.getType? name = some t)
    : isQualified name = false := by
  cases qualified : isQualified name with
  | false => rfl
  | true =>
      have uses := (resolution_of_resolve ok).uses
      rw [alone] at uses
      rw [getType?_eq] at found
      obtain ⟨p, place, -⟩ := Option.map_eq_some_iff.mp found
      obtain ⟨key, used, member, -⟩ := within_used_of_place? qualified place
      rw [← Except.ok.inj uses] at member
      cases member

/-- In a library that uses no other, a kind that is not known is the name of a type further down the
line of bases, or that of a type written in place. -/
theorem kind_of_entry (alone : l.uses = []) (ok : l.resolve = .ok r)
    (fresh : ∀ name t, own? l.types name = some t → t.Fresh) {name : String} {t : TypeNode}
    (found : own? l.types name = some t)
    : ∀ t' custom, Keyed.get? r.types name = some t' → t'.kind = .custom custom
        → TransGen (BaseLink l.types) name custom ∨ TypeNode.InPlaceName custom := by
  refine entry_induct ok (P := fun name => ∀ t' custom, Keyed.get? r.types name = some t'
    → t'.kind = .custom custom
    → TransGen (BaseLink l.types) name custom ∨ TypeNode.InPlaceName custom)
    (fun name t found before t' custom entry kind => ?_) found
  rw [entry_of_own? ok found] at entry
  cases entry
  have fresh := fresh name t found
  rw [TypeNode.kind_fillFrom (fresh.linkAnnotations _).unresolved, TypeNode.base?_linkAnnotations,
    TypeNode.kind_linkAnnotations] at kind
  cases inherited : t.base?.bind (outside (trail l.types name ++ [name]) r.getType?) with
  | none =>
      rw [inherited] at kind
      exact (fresh.base?_or_inPlaceName kind).imp_left fun base? => .single ⟨t, found, base?⟩
  | some base =>
      rw [inherited] at kind
      obtain ⟨other, base?, answer⟩ := Option.bind_eq_some_iff.mp inherited
      obtain ⟨free, answer⟩ := outside_eq_some_iff.mp answer
      have unqualified := unqualified_of_alone alone ok answer
      rw [getType?_of_unqualified _ unqualified] at answer
      have mentioned := TypeNode.mem_references_of_base? base?
      have link : BaseLink l.types name other := ⟨t, found, base?⟩
      have found := before other mentioned unqualified free base custom answer kind
      exact found.imp_left (.head link)

/-- A type that is declared first finds what it refers to, and does not find it if that is declared
first and leads back to it. -/
theorem entry_ne_of_first (alone : l.uses = []) (unique : (Keyed.keys l.types).Nodup)
    (fresh : ∀ name t, own? l.types name = some t → t.Fresh) {types' : Types} {r' : Library}
    (perm : l.types.Perm types') (ok : l.resolve = .ok r)
    (ok' : (l.withTypes types').resolve = .ok r')
    {a b : String} (distinct : a ≠ b) (refers : Refers l.types a b)
    (back : TransGen (Refers l.types) b a) {names names' : List String}
    (first : undotted (Keyed.keys l.types) = a :: names)
    (first' : undotted (Keyed.keys types') = b :: names')
    : Keyed.get? r'.types a ≠ Keyed.get? r.types a := by
  intro same
  obtain ⟨t, found, mentioned⟩ := refers
  have found' : own? types' a = some t := own?_perm unique perm ▸ found
  have freshType := (fresh a t found).linkAnnotations (l.withUses r.uses)
  rw [entry_of_own? ok found, entry_of_own? ok' found', linkAnnotations_perm ok ok'] at same
  have kinds := TypeNode.kind_of_fillFrom_eq freshType (Option.some.inj same) b
    (by rwa [TypeNode.references_linkAnnotations])
  -- Declared first, `b` is under resolution when `a` is reached.
  have under : b ∈ trail types' a :=
    (trail_of_first ok' first').2 a (refers_perm unique perm ▸ back)
      (Option.isSome_iff_exists.mpr ⟨t, found'⟩) distinct
  have cut : outside (trail types' a ++ [a]) r'.getType? b = none := by
    simp [outside, under]
  -- Declared after `a`, it is completed.
  obtain ⟨tb, foundB⟩ := Option.isSome_iff_exists.mp (isSome_of_reaches back)
  have answer : outside (trail l.types a ++ [a]) r.getType? b = Keyed.get? r.types b := by
    have free : b ∉ trail l.types a ++ [a] := by
      simp [(trail_of_first ok first).1, Ne.symm distinct]
    rw [outside, if_neg free, getType?_of_unqualified _ (own?_eq_some.mp foundB).1]
  have entry := entry_of_own? ok foundB
  rw [withTypes, cut, answer, entry] at kinds
  rcases kind_of_entry alone ok fresh foundB _ b entry kinds.symm with cycle | inPlace
  · exact (Resolution.defined ok).2 b cycle
  · exact (fresh a t found).not_inPlaceName b mentioned inPlace

/-- The types of a knot come out differently if another one of them is declared first. -/
theorem exists_entry_ne_of_knot (alone : l.uses = []) (unique : (Keyed.keys l.types).Nodup)
    (fresh : l.FreshTypes) (ok : l.resolve = .ok r) {name other : String}
    (knot : Knot l.types name other)
    : ∃ types' r' changed, l.types.Perm types' ∧ (l.withTypes types').resolve = .ok r'
        ∧ Keyed.get? r'.types changed ≠ Keyed.get? r.types changed := by
  obtain ⟨a, b, distinct, refers, back⟩ := knot.refers
  obtain ⟨first, _, perm, first_a⟩ := exists_perm_first (isSome_of_reaches (.single refers))
  obtain ⟨second, _, perm', first_b⟩ := exists_perm_first (isSome_of_reaches back)
  obtain ⟨r₁, ok₁⟩ := resolve_perm unique perm ok
  obtain ⟨r₂, ok₂⟩ := resolve_perm unique perm' ok
  have unique₁ : (Keyed.keys first).Nodup := (perm.map Prod.fst).nodup_iff.mp unique
  have fresh₁ : ∀ name t, own? first name = some t → t.Fresh := by
    intro name t found
    rw [own?_perm unique perm] at found
    exact fresh l (.self l) name t (own?_eq_some.mp found).2
  have differ : Keyed.get? r₂.types a ≠ Keyed.get? r₁.types a := by
    refine entry_ne_of_first (l := l.withTypes first) alone unique₁ fresh₁
      (perm.symm.trans perm') ok₁ ok₂ distinct ?_ ?_ first_a first_b
    · exact refers_perm unique perm ▸ refers
    · exact refers_perm unique perm ▸ back
  -- One of both orders differs from the given one.
  by_cases same : Keyed.get? r₁.types a = Keyed.get? r.types a
  · exact ⟨second, r₂, a, perm', ok₂, same ▸ differ⟩
  · exact ⟨first, r₁, a, perm, ok₁, same⟩

/-- Whether a library can be resolved does not depend on the order in which its types are declared.
In any order, a type that leads to no knot comes out the same and takes the same values. In a
library that uses no other and whose bases lead back to nothing that extends them, all types do in
all orders if and only if no two refer to each other through properties. -/
theorem resolve_perm_and_entries_perm_iff (l : Library) (unique : (Keyed.keys l.types).Nodup)
    : (∀ types', l.types.Perm types'
        → ((∃ r, l.resolve = .ok r) ↔ ∃ r', (l.withTypes types').resolve = .ok r'))
      ∧ (∀ types' r r', l.types.Perm types' → l.resolve = .ok r
        → (l.withTypes types').resolve = .ok r' → ∀ name, Untangled l.types name
        → Keyed.get? r'.types name = Keyed.get? r.types name
          ∧ ∀ t t', Keyed.get? r.types name = some t → Keyed.get? r'.types name = some t'
            → ∀ v o, t'.check v o = t.check v o)
      ∧ (l.uses = [] → l.FreshTypes → BasesApart l.types → ∀ r, l.resolve = .ok r
        → ((∀ types' r' name, l.types.Perm types' → (l.withTypes types').resolve = .ok r'
            → Keyed.get? r'.types name = Keyed.get? r.types name)
          ↔ ∀ a b, ¬PropertyKnot l.types a b)) := by
  refine ⟨fun types' perm => ⟨fun ⟨r, ok⟩ => resolve_perm unique perm ok, ?_⟩, ?_, ?_⟩
  · rintro ⟨r', ok'⟩
    have unique' : (Keyed.keys types').Nodup := (perm.map Prod.fst).nodup_iff.mp unique
    have back := resolve_perm (l := l.withTypes types') unique' perm.symm ok'
    rwa [withTypes_withTypes] at back
  · intro types' r r' perm ok ok' name untangled
    have same := entry_perm unique perm ok ok' untangled
    refine ⟨same, fun t t' entry entry' v o => ?_⟩
    cases (same.trans entry).symm.trans entry'
    rfl
  · intro alone fresh apart r ok
    refine ⟨fun independent a b knot => ?_, fun none types' r' name perm ok' => ?_⟩
    · obtain ⟨types', r', changed, perm, ok', differ⟩ :=
        exists_entry_ne_of_knot alone unique fresh ok knot.knot
      exact differ (independent types' r' changed perm ok')
    · exact entry_perm unique perm ok ok' fun a b _ knot => none a b (apart.knot_iff.mp knot)

-----------------------------------------------------------------------------------------
-- Two types that are properties of each other
-----------------------------------------------------------------------------------------

/-- `A` has a property of type `B`, and `B` has one of type `A`. Nothing leads from `C` to them. -/
def twins : Library :=
  { empty with
    types := [
      ("A", (TypeNode.ofName "object").withProperties [("b", .ofName "b" "B")]),
      ("B", (TypeNode.ofName "object").withProperties [("a", .ofName "a" "A")]),
      ("C", .ofName "string")] }

/-- The same types, in another order. -/
def swappedTwins : Types :=
  [("B", (TypeNode.ofName "object").withProperties [("a", .ofName "a" "A")]),
    ("A", (TypeNode.ofName "object").withProperties [("b", .ofName "b" "B")]),
    ("C", .ofName "string")]

theorem perm_twins : twins.types.Perm swappedTwins := .swap _ _ _

theorem nodup_twins : (Keyed.keys twins.types).Nodup := by decide

/-- Nothing has inherited yet. -/
theorem freshTypes_twins : twins.FreshTypes := by
  refine freshTypes_of_alone rfl fun entry member => ?_
  simp only [twins, List.mem_cons, List.not_mem_nil, or_false] at member
  rcases member with rfl | rfl | rfl
  · exact TypeNode.fresh_withProperty _ _ _
  · exact TypeNode.fresh_withProperty _ _ _
  · exact TypeNode.fresh_ofName _

/-- Two of the types have properties of each other. -/
theorem propertyKnot_twins : PropertyKnot twins.types "A" "B" where
  distinct := by decide
  there := .single ⟨_, rfl, rfl, by decide⟩
  back := .single ⟨_, rfl, rfl, by decide⟩

/-- None of the types has a base that is declared. -/
theorem basesApart_twins : BasesApart twins.types := by
  rintro name base ⟨t, found, base?⟩
  have member := Keyed.mem_of_get? (own?_eq_some.mp found).2
  simp only [twins, List.mem_cons, List.not_mem_nil, or_false, Prod.mk.injEq] at member
  rcases member with ⟨-, rfl⟩ | ⟨-, rfl⟩ | ⟨-, rfl⟩ <;> cases base?

/-- The third one refers to neither of them. -/
theorem untangled_twins : Untangled twins.types "C" := by
  have leads : ∀ other, ¬Refers twins.types "C" other := by
    rintro other ⟨t, found, mentioned⟩
    cases found
    revert mentioned
    have empty : (TypeNode.ofName "string").references = [] := by decide
    simp [empty]
  intro a b reaches knot
  rcases ReflTransGen.cases_head reaches with rfl | ⟨other, refers, -⟩
  · obtain ⟨other, refers, -⟩ := TransGen.head'_iff.mp knot.there
    exact leads other refers
  · exact leads other refers

/-- A value of the property of `B` that has no properties of `A`. -/
def unlikeTwins : Value := .object [("a", .object [("x", .integer 1)])]

/-- `B` takes the value if `A` is declared first, and only then. -/
theorem resolve_twins
    : ∃ r r' t t', twins.resolve = .ok r ∧ (twins.withTypes swappedTwins).resolve = .ok r'
        ∧ Keyed.get? r.types "B" = some t ∧ Keyed.get? r'.types "B" = some t'
        ∧ (t.check unlikeTwins {}).toOption = some ()
        ∧ (t'.check unlikeTwins {}).toOption = none := by
  have verdict : (twins.resolve.toOption.bind fun r => (Keyed.get? r.types "B").map fun t =>
      (t.check unlikeTwins {}).toOption) = some (some ()) := by
    decide +kernel
  have verdict' : ((twins.withTypes swappedTwins).resolve.toOption.bind fun r =>
      (Keyed.get? r.types "B").map fun t => (t.check unlikeTwins {}).toOption) = some none := by
    decide +kernel
  obtain ⟨r, ok, found⟩ := Option.bind_eq_some_iff.mp verdict
  obtain ⟨r', ok', found'⟩ := Option.bind_eq_some_iff.mp verdict'
  obtain ⟨t, entry, taken⟩ := Option.map_eq_some_iff.mp found
  obtain ⟨t', entry', refused⟩ := Option.map_eq_some_iff.mp found'
  exact ⟨r, r', t, t', ok_of_toOption ok, ok_of_toOption ok', entry, entry', taken, refused⟩

/-- In either order the third type comes to the same, and not all of them do. -/
theorem entries_of_twins
    : (Keyed.keys twins.types).Nodup ∧ ∃ r r', twins.resolve = .ok r
        ∧ (twins.withTypes swappedTwins).resolve = .ok r'
        ∧ Keyed.get? r'.types "C" = Keyed.get? r.types "C"
        ∧ ¬∀ types' r' name, twins.types.Perm types' → (twins.withTypes types').resolve = .ok r'
          → Keyed.get? r'.types name = Keyed.get? r.types name := by
  obtain ⟨succeeds, untangled, iff⟩ := resolve_perm_and_entries_perm_iff twins nodup_twins
  obtain ⟨r, _, _, _, ok, -⟩ := resolve_twins
  obtain ⟨r', ok'⟩ := (succeeds swappedTwins perm_twins).mp ⟨r, ok⟩
  refine ⟨nodup_twins, r, r', ok, ok', ?_, fun independent => ?_⟩
  · exact (untangled swappedTwins r r' perm_twins ok ok' "C" untangled_twins).1
  · exact (iff rfl freshTypes_twins basesApart_twins r ok).mp independent "A" "B"
      propertyKnot_twins

/-- The order of declaration can decide whether a value conforms to a type. -/
theorem not_check_perm
    : ¬∀ (l r r' : Library) (types' : Types), (Keyed.keys l.types).Nodup → l.FreshTypes
        → l.types.Perm types' → l.resolve = .ok r → (l.withTypes types').resolve = .ok r'
        → ∀ name t t', Keyed.get? r.types name = some t → Keyed.get? r'.types name = some t'
        → ∀ v o, t.check v o = t'.check v o := by
  intro agree
  obtain ⟨r, r', t, t', ok, ok', entry, entry', taken, refused⟩ := resolve_twins
  have same := agree twins r r' swappedTwins nodup_twins freshTypes_twins perm_twins ok ok' "B" t t'
    entry entry' unlikeTwins {}
  rw [same, refused] at taken
  cases taken

end Library

end Raml
