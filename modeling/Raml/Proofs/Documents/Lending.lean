import Raml.Proofs.Checking.Failures
import Raml.Proofs.Documents.Hooks
import Raml.Proofs.Resolution.Lineage

/-! What types lend to others: properties go from a declared type to whatever stands in its library
or around it, and meet there what is demanded of them.

So resolution keeps demands that are the weaker the less far something reaches.
-/

namespace Raml

variable {M : Demands} {pos : Position}

-----------------------------------------------------------------------------------------
-- What names lead to
-----------------------------------------------------------------------------------------

namespace Library

variable {P : Spot → Prop}

/-- A library that namespaces lead to stands in the one that they start from. -/
theorem spots_of_descend? {l m : Library} (h : ∀ spot ∈ l.spots pos, P spot) {path : List String}
    (found : l.descend? path = some m)
    : ∃ within : Position, (∀ spot ∈ m.spots within, P spot) ∧ pos.chain ⊆ within.chain := by
  induction path generalizing l pos with
  | nil =>
      cases found
      exact ⟨pos, h, List.Subset.refl _⟩
  | cons name path ih =>
      obtain ⟨used, first, rest⟩ := Option.bind_eq_some_iff.mp found
      have inside : ∀ spot ∈ used.spots (pos.enter used), P spot :=
        fun spot member => h spot (mem_spots_of_use (mem_uses_of_namespace? first) member)
      obtain ⟨within, spots, chain⟩ := ih inside rest
      exact ⟨within, spots, List.Subset.trans (List.subset_cons_self _ _) chain⟩

/-- What names lead to stands in the library as a declared type. -/
theorem type_of_getType? {l : Library} (h : ∀ spot ∈ l.spots pos, P spot) {name : String}
    {t : TypeNode} (found : l.getType? name = some t)
    : ∃ within : Position, P ⟨within.inRole .declared, .type t⟩
        ∧ pos.chain ⊆ within.chain := by
  obtain ⟨m, descended, found⟩ := getType?_eq_some_iff.mp found
  obtain ⟨within, spots, chain⟩ := spots_of_descend? h descended
  exact ⟨within, (forall_spots_iff.mp spots).1 _ (Keyed.mem_of_get? found), chain⟩

/-- What names of traits lead to stands in the library and is shared. -/
theorem spots_of_getTrait? {l : Library} (h : ∀ spot ∈ l.spots pos, P spot) {name : String}
    {t : Trait} (found : l.getTrait? name = some t)
    : ∃ within : Position, (∀ part ∈ t.parts, P ⟨within.inRole .shared, part⟩)
        ∧ pos.chain ⊆ within.chain := by
  obtain ⟨m, descended, found⟩ := getTrait?_eq_some_iff.mp found
  obtain ⟨within, spots, chain⟩ := spots_of_descend? h descended
  exact ⟨within, (forall_spots_iff.mp spots).2.1 _ (Keyed.mem_of_get? found), chain⟩

end Library

-----------------------------------------------------------------------------------------
-- Inheritance
-----------------------------------------------------------------------------------------

/-- What meets demands somewhere meets them also where it reaches less far. -/
theorem TypeNode.Meets.nearer (lasting : M.Lasting) {further : Position} {t : TypeNode}
    (meets : t.Meets M further) (within : pos.reach ⊆ further.reach)
    (inside : pos.inner.reach ⊆ further.inner.reach)
    : t.Meets M pos := by
  induction t using TypeNode.induct generalizing pos further with
  | step t ih =>
      obtain ⟨examples, properties, types⟩ := meets
      refine .intro (fun e member => lasting.nearer within (examples e member)) properties
        fun key p member => ih key p member (types key p member) inside ?_
      rwa [Position.inner_inner, Position.inner_inner]

/-- The type has properties that may be inherited at a position. -/
def TypeNode.Lends (M : Demands) (pos : Position) (base : TypeNode) : Prop :=
  ∃ further : Position, base.Meets M further ∧ pos.inner.reach ⊆ further.inner.reach

/-- To change all types is to put other types in their places. -/
theorem Properties.mapTypes_eq_withTypes (f : TypeNode → TypeNode) (ps : Properties)
    : ps.mapTypes f = ps.withTypes (ps.map fun entry => f entry.2.type) := by
  induction ps with
  | nil => rfl
  | cons entry ps ih => exact congrArg _ ih

/-- Each property keeps its key. -/
theorem Properties.mem_mapTypes {f : TypeNode → TypeNode} {ps : Properties} {key : String}
    {q : Property} (h : (key, q) ∈ ps.mapTypes f)
    : ∃ p, (key, p) ∈ ps ∧ q.type = f p.type := by
  obtain ⟨⟨_, p⟩, member, same⟩ := List.mem_map.mp h
  obtain ⟨rfl, rfl⟩ := Prod.mk.inj same
  exact ⟨p, member, rfl⟩

/-- Types keep their own examples and inherit properties from types that lend them. -/
theorem TypeNode.Meets.fillFrom (lasting : M.Lasting) {find : String → Option TypeNode}
    {t : TypeNode} (meets : t.Meets M pos)
    (bases : ∀ name base, find name = some base → base.Lends M pos)
    : (t.fillFrom find).Meets M pos := by
  induction t using TypeNode.induct generalizing pos with
  | step t ih =>
      cases resolved : t.resolved with
      | true => rwa [fillFrom_of_resolved resolved]
      | false =>
          obtain ⟨examples, properties, types⟩ := meets
          have own : M.ofProperties (t.properties.mapTypes (TypeNode.fillFrom find)) := by
            rw [Properties.mapTypes_eq_withTypes]
            exact lasting.types _ properties
          have inside : ∀ key p, (key, p) ∈ t.properties.mapTypes (TypeNode.fillFrom find)
              → p.type.Meets M pos.inner := by
            intro key q member
            obtain ⟨p, declared, same⟩ := Properties.mem_mapTypes member
            rw [same]
            refine ih key p declared (types key p declared) fun name base found => ?_
            obtain ⟨further, meets, reach⟩ := bases name base found
            exact ⟨further, meets, by rwa [Position.inner_inner]⟩
          rw [fillFrom_eq resolved]
          cases found : t.base?.bind find with
          | none => exact .intro examples own inside
          | some base =>
              obtain ⟨name, -, found⟩ := Option.bind_eq_some_iff.mp found
              obtain ⟨further, ⟨-, lent, types⟩, reach⟩ := bases name base found
              rw [filled_some]
              -- Only properties are taken over, and only all of them or none.
              cases empty : t.object.isEmpty with
              | false => exact .intro examples own inside
              | true =>
                  refine .intro examples lent fun key p member => ?_
                  refine (types key p member).nearer lasting reach ?_
                  rwa [Position.inner_inner, Position.inner_inner]

/-- Links make no difference to demands. -/
theorem TypeNode.Meets.linkAnnotations (lasting : M.Lasting) (l : Library) {t : TypeNode}
    (meets : t.Meets M pos)
    : (t.linkAnnotations l).Meets M pos := by
  induction t using TypeNode.induct generalizing pos with
  | step t ih =>
      obtain ⟨examples, properties, types⟩ := meets
      rw [linkAnnotations_eq]
      refine .intro examples ?_ fun key q member => ?_
      · rw [Properties.mapTypes_eq_withTypes]
        exact lasting.types _ properties
      · obtain ⟨p, declared, same⟩ := Properties.mem_mapTypes member
        rw [same]
        exact ih key p declared (types key p declared)

/-- A declared type lends its properties to whatever stands in the library or around it. -/
theorem Library.lends_of_getType? {l : Library} (h : ∀ spot ∈ l.spots pos, spot.Meets M)
    {name : String} {base : TypeNode} (found : l.getType? name = some base)
    : base.Lends M pos := by
  obtain ⟨within, meets, chain⟩ := l.type_of_getType? h found
  exact ⟨_, meets, List.Subset.trans pos.inner.reach_subset_chain chain⟩

/-- A type that is filled meets the demands where it stands, since what it inherits is lent to it.
-/
theorem TypeNode.fill_alike (lasting : M.Lasting) {l : Library}
    (h : ∀ spot ∈ l.spots pos, spot.Meets M) {t : TypeNode} (meets : t.Meets M pos)
    : Alike Error.Early (t.fill l) (t.fill l) (TypeNode.Meets M pos) := by
  rcases t.fill_cases l with ⟨ok, -⟩ | ⟨name, -, -, error⟩
  · rw [ok]
    exact Alike.ok (meets.fillFrom lasting fun name base found => l.lends_of_getType? h found)
  · rw [error]
    exact Alike.fail ⟨nofun, nofun⟩

-----------------------------------------------------------------------------------------
-- Resolution
-----------------------------------------------------------------------------------------

/-- Declared types that meet demands do so when they are resolved. -/
theorem Resolver.Run.meets (lasting : M.Lasting) {outer : String → Option TypeNode}
    {declared types : Types} {done : Traversal.Completed} (run : Run outer declared done types)
    (start : ∀ entry ∈ declared, entry.2.Meets M (pos.inRole .declared))
    (others : ∀ name base, outer name = some base → base.Lends M (pos.inRole .declared))
    : ∀ entry ∈ types, entry.2.Meets M (pos.inRole .declared) := by
  refine run.forall_types start fun t find own bases => own.fillFrom lasting ?_
  intro name base answer
  rcases bases name base answer with ⟨-, found⟩ | meets
  · exact others name base found
  · exact ⟨_, meets, List.Subset.refl _⟩

namespace Library

variable {l : Library}

/-- So do all types of a library by itself. -/
theorem resolveTypes_alike (lasting : M.Lasting) (h : ∀ spot ∈ l.spots pos, spot.Meets M)
    : Alike Error.Early l.resolveTypes l.resolveTypes fun r =>
        r.location = l.location ∧ ∀ spot ∈ r.spots pos, spot.Meets M := by
  obtain ⟨types, traits, annotationTypes, uses⟩ := forall_spots_iff.mp h
  rcases l.resolveTypes_cases with
    ⟨resolved, run, -, ok⟩ | ⟨e, error, failure | ⟨_, _, entry, _, name, _, _, rfl⟩⟩
  · have linked : ∀ entry ∈ l.linkedTypes, entry.2.Meets M (pos.inRole .declared) := by
      rintro _ member
      obtain ⟨entry, declared, rfl⟩ := List.mem_map.mp member
      exact (types entry declared).linkAnnotations lasting l
    have inside : ∀ spot ∈ l.spots (pos.inRole .declared), spot.Meets M := by rwa [spots_inRole]
    have types := run.meets lasting linked fun name base found => l.lends_of_getType? inside found
    have known : ∀ spot ∈ (l.withTypes resolved).spots pos, spot.Meets M :=
      forall_spots_iff.mpr ⟨types, traits, annotationTypes, uses⟩
    rw [ok]
    refine Alike.ok ⟨rfl, forall_spots_iff.mpr ⟨types, traits, ?_, uses⟩⟩
    rintro _ member
    obtain ⟨entry, declared, rfl⟩ := List.mem_map.mp member
    have own : entry.2.type.Meets M (pos.inRole .own) := annotationTypes entry declared
    exact own.fillFrom lasting fun name base found =>
      lends_of_getType? (l := l.withTypes resolved) (by rwa [spots_inRole]) found
  · rw [error]
    cases failure <;> exact Alike.fail ⟨nofun, nofun⟩
  · rw [error]
    exact Alike.fail ⟨nofun, nofun⟩

/-- And those of the libraries that it uses. -/
theorem resolveUses_alike {uses : Uses} (h : ∀ spot ∈ useSpots pos uses, spot.Meets M)
    (each : ∀ name used, (name, Use.loaded used) ∈ uses
      → (∀ spot ∈ used.spots (pos.enter used), spot.Meets M)
      → Alike Error.Early used.resolve used.resolve fun r =>
          r.location = used.location ∧ ∀ spot ∈ r.spots (pos.enter used), spot.Meets M)
    : Alike Error.Early (resolveUses uses) (resolveUses uses) fun uses =>
        ∀ spot ∈ useSpots pos uses, spot.Meets M := by
  induction uses with
  | nil => exact Alike.ok (by simp [useSpots])
  | cons entry uses ih =>
      obtain ⟨name, use⟩ := entry
      obtain ⟨first, rest⟩ := List.forall_mem_append.mp h
      have done : Alike Error.Early (resolveUse use) (resolveUse use) fun use =>
          ∀ spot ∈ use.spots pos, spot.Meets M := by
        cases use with
        | external path => exact Alike.ok (by simp [Use.spots])
        | loaded used =>
            refine (each name used List.mem_cons_self first).bind fun r h => Alike.ok ?_
            have same : pos.enter r = pos.enter used := by simp [Position.enter, h.1]
            rw [Use.spots, same]
            exact h.2
      have later := ih rest fun name used member =>
        each name used (List.mem_cons_of_mem _ member)
      refine done.bind fun _ first => later.bind fun _ rest => Alike.ok ?_
      exact List.forall_mem_append.mpr ⟨first, rest⟩

/-- Resolution keeps what types demand: properties are inherited from libraries inside. -/
theorem resolve_alike (lasting : M.Lasting) (h : ∀ spot ∈ l.spots pos, spot.Meets M)
    : Alike Error.Early l.resolve l.resolve fun r =>
        r.location = l.location ∧ ∀ spot ∈ r.spots pos, spot.Meets M := by
  induction l using induct generalizing pos with
  | step l ih =>
      obtain ⟨types, traits, annotationTypes, uses⟩ := forall_spots_iff.mp h
      rw [resolve_eq]
      refine (resolveUses_alike uses fun name used member => ih name used member).bind
        fun uses inside => ?_
      exact resolveTypes_alike lasting
        (forall_spots_iff.mpr ⟨types, traits, annotationTypes, inside⟩)

end Library

end Raml
