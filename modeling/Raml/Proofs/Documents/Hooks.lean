import Raml.Proofs.Documents.Walk
import Raml.Proofs.Outcomes

/-! Passes that visit types: what hooks do to a type by itself, the visit does at every depth.
-/

namespace Raml

variable {allowed : Error → Prop} {M N : Demands} {pos : Position}

-----------------------------------------------------------------------------------------
-- One type
-----------------------------------------------------------------------------------------

/-- The same type with other examples. -/
def TypeNode.withExamples (t : TypeNode) (example? : Option Example) (examples : Examples)
    : TypeNode :=
  { t with declaration := { t.declaration with example?, examples } }

/-- Examples are changed one by one, and nothing else is. -/
theorem TypeNode.mapExamplesM_alike {f g : Example → Except Error Example} {E : Example → Prop}
    {t : TypeNode} (each : ∀ e ∈ t.allExamples, Alike allowed (f e) (g e) E)
    : Alike allowed (t.mapExamplesM f) (t.mapExamplesM g) fun t' =>
        ∃ example? examples, t' = t.withExamples example? examples
          ∧ ∀ e ∈ t'.allExamples, E e := by
  have single : Alike allowed (t.declaration.example?.mapM f) (t.declaration.example?.mapM g)
      fun example? => ∀ e ∈ example?.toList, E e := by
    cases own : t.declaration.example? with
    | none => exact Alike.ok (by simp)
    | some e =>
        simp only [Option.mapM_some]
        refine Alike.map ((each e ?_).mono fun e h => by simpa using h)
        simp [allExamples, own]
  refine single.bind fun example? single => ?_
  refine (Alike.mapM (Q := fun entry : String × Example => E entry.2) fun entry member => ?_).bind
    fun examples all => ?_
  · refine (each entry.2 ?_).bind fun e h => Alike.ok h
    exact List.mem_append_right _ (List.mem_map_of_mem member)
  · refine Alike.ok ⟨example?, examples, rfl, fun e member => ?_⟩
    rcases List.mem_append.mp member with first | named
    · exact single e first
    · obtain ⟨entry, inside, rfl⟩ := List.mem_map.mp named
      exact all entry inside

/-- What hooks do to annotations does not matter. -/
theorem TypeHooks.apply_alike {h h' : TypeHooks} (lasting : N.Lasting)
    (annotations : ∀ targets annotations, Alike allowed (h.annotations targets annotations)
      (h'.annotations targets annotations) fun _ => True)
    (targets : List Target) {t : TypeNode}
    (node : Alike allowed (h.node t) (h'.node t) fun t => ∀ e ∈ t.allExamples, N.ofExample pos e)
    : Alike allowed (h.apply targets t) (h'.apply targets t) fun t =>
        ∀ e ∈ t.allExamples, N.ofExample pos e := by
  refine node.bind fun t examples => (annotations _ _).bind fun applied _ => ?_
  refine (TypeNode.mapExamplesM_alike (E := N.ofExample pos) fun e member => ?_).mono ?_
  · exact (annotations _ _).bind fun applied _ =>
      Alike.ok (lasting.annotations applied (examples e member))
  · exact fun t ⟨_, _, _, examples⟩ => examples

-----------------------------------------------------------------------------------------
-- Types and their properties
-----------------------------------------------------------------------------------------

/-- A visit goes to the type itself, to its properties as a list, and then to the types of these. -/
theorem TypeNode.visit_eq (h : TypeHooks) (targets : List Target) (t : TypeNode)
    : t.visit h targets
      = h.apply targets t >>= fun visited => h.properties t.properties >>= fun renamed =>
          visitTypes h t.properties >>= fun types =>
            .ok (visited.withProperties (renamed.withTypes types)) := by
  obtain ⟨_, ⟨_, _, _, _, _, _⟩, _, _, _, _, _, _, _, _⟩ := t
  rfl

/-- The types of properties are visited one by one. -/
theorem visitTypes_eq_mapM (h : TypeHooks) (properties : Properties)
    : visitTypes h properties
      = properties.mapM fun entry => entry.2.type.visit h [.typeDeclaration] := by
  induction properties with
  | nil => rfl
  | cons entry properties ih =>
      obtain ⟨key, ⟨type, required, name⟩⟩ := entry
      rw [visitTypes, List.mapM_cons, ih]
      rfl

/-- What every visit of a type yields holds of all types. -/
theorem visitTypes_yields {h : TypeHooks} {P : TypeNode → Prop} {properties : Properties}
    (each : ∀ key p, (key, p) ∈ properties → Yields (p.type.visit h [.typeDeclaration]) P)
    : Yields (visitTypes h properties) fun types => ∀ t ∈ types, P t := by
  rw [visitTypes_eq_mapM]
  exact Yields.mapM fun entry member => each entry.1 entry.2 member

/-- Properties with other types have these. -/
theorem Properties.mem_withTypes {properties : Properties} {types : List TypeNode} {key : String}
    {p : Property} (h : (key, p) ∈ properties.withTypes types)
    : p.type ∈ types := by
  induction properties generalizing types with
  | nil => simp [withTypes] at h
  | cons entry properties ih =>
      cases types with
      | nil => simp [withTypes] at h
      | cons type types =>
          rcases List.mem_cons.mp h with same | later
          · cases same
            exact List.mem_cons_self
          · exact List.mem_cons_of_mem _ (ih later)

/-- Their keys stay as they are, as long as there are enough types. -/
theorem Properties.keys_withTypes (ps : Properties) (types : List TypeNode)
    : Keyed.keys (ps.withTypes types) <+: Keyed.keys ps := by
  induction ps generalizing types with
  | nil => simp [withTypes, Keyed.keys]
  | cons entry ps ih =>
      cases types with
      | nil => simp [withTypes, Keyed.keys]
      | cons type types => exact (List.prefix_cons_inj entry.1).mpr (ih types)

/-- Each is one of the properties but for its type. -/
theorem Properties.mem_of_mem_withTypes {ps : Properties} {types : List TypeNode} {key : String}
    {q : Property} (h : (key, q) ∈ ps.withTypes types)
    : ∃ p, (key, p) ∈ ps ∧ q.name = p.name := by
  induction ps generalizing types with
  | nil => simp [withTypes] at h
  | cons entry ps ih =>
      cases types with
      | nil => simp [withTypes] at h
      | cons type types =>
          rcases List.mem_cons.mp h with same | later
          · cases same
            exact ⟨entry.2, List.mem_cons_self, rfl⟩
          · obtain ⟨p, member, same⟩ := ih later
            exact ⟨p, List.mem_cons_of_mem _ member, same⟩

/-- No key stands twice, and properties are named by their keys. -/
def Properties.Named (ps : Properties) : Prop :=
  (Keyed.keys ps).Nodup ∧ ∀ key p, (key, p) ∈ ps → p.name = key

theorem Properties.named_nil : Properties.Named [] := ⟨List.nodup_nil, nofun⟩

/-- So they stay named by their keys. -/
theorem Properties.Named.withTypes {ps : Properties} (h : ps.Named) (types : List TypeNode)
    : (ps.withTypes types).Named := by
  refine ⟨(ps.keys_withTypes types).sublist.nodup h.1, fun key q member => ?_⟩
  obtain ⟨p, declared, same⟩ := mem_of_mem_withTypes member
  rw [same, h.2 key p declared]

/-- A property with a new name may be added. -/
theorem Properties.Named.append {ps : Properties} {name : String} {p : Property} (h : ps.Named)
    (new : Keyed.has ps name = false) (same : p.name = name)
    : (ps ++ [(name, p)]).Named := by
  refine ⟨Keyed.nodup_append_new p h.1 new, fun key q member => ?_⟩
  rcases List.mem_append.mp member with before | last
  · exact h.2 key q before
  · cases List.mem_singleton.mp last
    exact same

/-- What two hooks have in common wherever a type meets the demands `M`. -/
structure TypeHooks.Carries (allowed : Error → Prop) (M N : Demands) (around : Position → Prop)
    (h h' : TypeHooks) : Prop where
  node (pos : Position) (t : TypeNode) (there : around pos) (meets : t.Meets M pos)
    : Alike allowed (h.node t) (h'.node t) fun t => ∀ e ∈ t.allExamples, N.ofExample pos e
  properties (ps : Properties) (meets : M.ofProperties ps)
    : Alike allowed (h.properties ps) (h'.properties ps) N.ofProperties
  annotations (targets : List Target) (annotations : Annotations)
    : Alike allowed (h.annotations targets annotations) (h'.annotations targets annotations)
        fun _ => True

namespace TypeHooks.Carries

variable {around : Position → Prop} {h h' : TypeHooks}

/-- Where each type is visited alike, so are all of them. -/
theorem visitTypes (pos : Position) {properties : Properties}
    (each : ∀ key p, (key, p) ∈ properties → Alike allowed (p.type.visit h [.typeDeclaration])
      (p.type.visit h' [.typeDeclaration]) (TypeNode.Meets N pos))
    : Alike allowed (visitTypes h properties) (visitTypes h' properties) fun types =>
        ∀ t ∈ types, t.Meets N pos := by
  induction properties with
  | nil => exact Alike.ok (by simp)
  | cons entry properties ih =>
      obtain ⟨key, ⟨type, required, name⟩⟩ := entry
      have rest := ih fun key p member => each key p (List.mem_cons_of_mem _ member)
      refine (each key _ List.mem_cons_self).bind fun type first => rest.bind fun types all => ?_
      exact Alike.ok (List.forall_mem_cons.mpr ⟨first, all⟩)

/-- What hooks have in common at a type by itself, visits have at every depth, by induction on the
type. -/
theorem visit (carries : Carries allowed M N around h h') (lasting : N.Lasting)
    (inward : ∀ pos, around pos → around pos.inner) (targets : List Target) {t : TypeNode}
    (there : around pos) (meets : t.Meets M pos)
    : Alike allowed (t.visit h targets) (t.visit h' targets) (TypeNode.Meets N pos) := by
  induction t using TypeNode.induct generalizing pos targets with
  | step t ih =>
      rw [TypeNode.visit_eq, TypeNode.visit_eq]
      have own := apply_alike lasting carries.annotations targets (carries.node pos t there meets)
      obtain ⟨-, properties, inside⟩ := meets
      refine own.bind fun visited examples => ?_
      refine (carries.properties _ properties).bind fun renamed properties => ?_
      have each := visitTypes pos.inner fun key p member =>
        ih key p member [.typeDeclaration] (inward pos there) (inside key p member)
      refine each.bind fun types all => Alike.ok ?_
      exact .intro examples (lasting.types types properties) fun key p member =>
        all p.type (Properties.mem_withTypes member)

/-- The same for properties that stand by themselves. -/
theorem visitProperties (carries : Carries allowed M N around h h') (lasting : N.Lasting)
    (inward : ∀ pos, around pos → around pos.inner) {ps : Properties} (there : around pos)
    (meets : (Part.properties ps).Meets M pos)
    : Alike allowed (ps.visit h) (ps.visit h') fun ps => (Part.properties ps).Meets N pos := by
  refine (carries.properties ps meets.1).bind fun renamed properties => ?_
  have each := visitTypes pos.inner fun key p member =>
    carries.visit lasting inward [.typeDeclaration] (inward pos there) (meets.2 key p member)
  refine each.bind fun types all => Alike.ok ⟨lasting.types types properties, ?_⟩
  exact fun key p member => all p.type (Properties.mem_withTypes member)

end TypeHooks.Carries

-----------------------------------------------------------------------------------------
-- Passes that visit all types
-----------------------------------------------------------------------------------------

/-- And so for a pass that does nothing but visit types. -/
theorem Pass.carries_ofHooks {hooks hooks' : Scope → TypeHooks} (lasting : N.Lasting)
    (carries : ∀ scope, TypeHooks.Carries allowed M N (scope.At (Spot.Meets M)) (hooks scope)
      (hooks' scope))
    : Carries allowed (Spot.Meets M) (Spot.Meets N) (ofHooks hooks) (ofHooks hooks') := by
  have inward (scope : Scope) (pos : Position) (around : scope.At (Spot.Meets M) pos)
      : scope.At (Spot.Meets M) pos.inner :=
    around.inRole _
  exact {
    type := fun scope pos targets t around meets =>
      (carries scope).visit lasting (inward scope) targets around meets
    properties := fun scope pos ps around meets =>
      (carries scope).visitProperties lasting (inward scope) around meets
    annotations := fun scope => (carries scope).annotations
    annotationTypes := fun _ _ h => ⟨rfl, h⟩
    trait := fun _ _ _ _ _ => Alike.ok nofun
    uriParameters := fun _ _ _ h => ⟨rfl, h⟩
    bodies := fun _ _ h => Alike.ok h }

end Raml
