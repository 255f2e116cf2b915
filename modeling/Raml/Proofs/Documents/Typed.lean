import Raml.Proofs.Annotations.Applied
import Raml.Proofs.Documents.Hooks
import Raml.Proofs.Documents.Survey

/-! Types among the places of a document, and what passes make of them all.

A type is one of the places, and so are the types of its properties at every depth.
-/

namespace Raml

variable {Q Q' : TypeNode → Prop}

-----------------------------------------------------------------------------------------
-- Types at places
-----------------------------------------------------------------------------------------

/-- It holds of the type and of those of its properties, at every depth. -/
def TypeNode.Throughout (Q : TypeNode → Prop) (t : TypeNode) : Prop := ∀ u, u.Within t → Q u

/-- It holds of the types of properties, at every depth. -/
def Properties.Throughout (Q : TypeNode → Prop) (properties : Properties) : Prop :=
  ∀ key p, (key, p) ∈ properties → p.type.Throughout Q

/-- It holds of the type, and throughout its properties. -/
theorem TypeNode.throughout_iff {t : TypeNode}
    : t.Throughout Q ↔ Q t ∧ t.properties.Throughout Q := by
  constructor
  · intro h
    exact ⟨h t (.self t), fun key p member u inside => h u (.property member inside)⟩
  · rintro ⟨own, properties⟩ u inside
    cases inside with
    | self => exact own
    | property member inside => exact properties _ _ member u inside

/-- What holds throughout a type holds throughout those in it. -/
theorem TypeNode.Throughout.within {t u : TypeNode} (h : t.Throughout Q) (inside : u.Within t)
    : u.Throughout Q := by
  induction inside with
  | self => exact h
  | property member _ ih => exact ih ((throughout_iff.mp h).2 _ _ member)

/-- To hold throughout is to do so at every depth. -/
theorem TypeNode.throughout_throughout {t : TypeNode}
    : t.Throughout (Throughout Q) ↔ t.Throughout Q :=
  ⟨fun h => h t (.self t), fun h _ inside => h.within inside⟩

theorem Properties.throughout_throughout {ps : Properties}
    : ps.Throughout (TypeNode.Throughout Q) ↔ ps.Throughout Q := by
  simp only [Throughout, TypeNode.throughout_throughout]

theorem Properties.throughout_nil : Properties.Throughout Q [] := nofun

theorem Properties.Throughout.append {ps others : Properties} (first : ps.Throughout Q)
    (rest : others.Throughout Q)
    : Properties.Throughout Q (ps ++ others) := by
  intro key p member
  rcases List.mem_append.mp member with here | there
  · exact first key p here
  · exact rest key p there

/-- Properties with other types are as good as these types. -/
theorem Properties.Throughout.withTypes {ps : Properties} {types : List TypeNode}
    (h : ∀ t ∈ types, t.Throughout Q)
    : (ps.withTypes types).Throughout Q :=
  fun _ _ member => h _ (mem_withTypes member)

namespace Site

/-- It holds of every type among the places. -/
def Types (Q : TypeNode → Prop) (sites : List Site) : Prop := ∀ t, .typeNode t ∈ sites → Q t

variable {sites : List Site}

@[simp] theorem types_nil : Types Q [] := nofun

@[simp] theorem types_append {a b : List Site} : Types Q (a ++ b) ↔ Types Q a ∧ Types Q b := by
  simp only [Types, List.mem_append, or_imp, forall_and]

@[simp] theorem types_flatMap {α : Type} {list : List α} {places : α → List Site}
    : Types Q (list.flatMap places) ↔ ∀ a ∈ list, Types Q (places a) := by
  simp only [Types, List.mem_flatMap]
  constructor
  · intro h a member t inside
    exact h t ⟨a, member, inside⟩
  · rintro h t ⟨a, member, inside⟩
    exact h a member t inside

/-- Among places, types are those that are looked at. -/
@[simp] theorem types_typeNode {t : TypeNode}
    : Types Q (.typeNode t :: sites) ↔ Q t ∧ Types Q sites := by
  simp [Types, or_imp, forall_and]

@[simp] theorem types_annotations {lead : String} {targets : List Target} {g : Annotations}
    : Types Q (.annotations lead targets g :: sites) ↔ Types Q sites := by
  simp [Types]

@[simp] theorem types_trait {lead : String} {t : Trait}
    : Types Q (.trait lead t :: sites) ↔ Types Q sites := by
  simp [Types]

@[simp] theorem types_method {m : Method} : Types Q (.method m :: sites) ↔ Types Q sites := by
  simp [Types]

/-- What leads to places does not matter to the types there. -/
theorem types_withLead {lead : String} : Types Q (sites.map (withLead lead)) ↔ Types Q sites := by
  have same (t : TypeNode) : .typeNode t ∈ sites.map (withLead lead) ↔ .typeNode t ∈ sites := by
    rw [List.mem_map]
    constructor
    · rintro ⟨site, member, same⟩
      cases site <;> cases same
      exact member
    · intro member
      exact ⟨_, member, rfl⟩
  simp only [Types, same]

/-- Less may be asked of all types. -/
theorem Types.mono {Q Q' : TypeNode → Prop} (h : Types Q sites) (weaken : ∀ t, Q t → Q' t)
    : Types Q' sites :=
  fun t member => weaken t (h t member)

end Site

/-- The types at the places in a type are the type and those of its properties, at every depth. -/
theorem TypeNode.types_sites {lead : String} {targets : List Target} {t : TypeNode}
    : Site.Types Q (t.sites lead targets) ↔ t.Throughout Q := by
  induction t using TypeNode.induct generalizing targets with
  | step t ih =>
      have examples : Site.Types Q
          (t.allExamples.map fun e => .annotations lead [.example] e.annotations) := by
        intro u member
        obtain ⟨_, -, same⟩ := List.mem_map.mp member
        cases same
      rw [sites_eq, throughout_iff, propertySites_eq]
      simp only [List.cons_append, Site.types_typeNode, Site.types_annotations, Site.types_append,
        Site.types_flatMap, examples, true_and]
      exact and_congr_right fun _ => ⟨fun h key p member => (ih key p member).mp (h (key, p) member),
        fun h entry member => (ih entry.1 entry.2 member).mpr (h entry.1 entry.2 member)⟩

/-- The types at the places in properties are theirs, at every depth. -/
theorem Properties.types_sites {lead : String} {properties : Properties}
    : Site.Types Q (propertySites lead properties) ↔ properties.Throughout Q := by
  simp only [propertySites_eq, Site.types_flatMap, TypeNode.types_sites, Throughout, Prod.forall]

/-- The types at the places in bodies are theirs, at every depth. -/
theorem Bodies.types_sites {lead : String} {site : Target} {bodies : Bodies}
    : Site.Types Q (Bodies.sites lead site bodies)
      ↔ ∀ entry ∈ bodies, entry.2.Throughout Q := by
  simp only [Bodies.sites, Site.types_flatMap, TypeNode.types_sites]

-----------------------------------------------------------------------------------------
-- Passes
-----------------------------------------------------------------------------------------

/-- Types that satisfy `Q` come to satisfy `Q'` wherever the pass comes by, provided that `B` holds
of the library around them. -/
structure Pass.Turns (B : Library → Prop) (Q Q' : TypeNode → Prop) (p : Pass) : Prop where
  empties : p.Empties
  type (s : Scope) (targets : List Target) {t : TypeNode} (around : B s.library)
    (h : t.Throughout Q) : Yields (p.type s targets t) (TypeNode.Throughout Q')
  properties (s : Scope) {ps : Properties} (around : B s.library) (h : ps.Throughout Q)
    : Yields (p.properties s ps) (Properties.Throughout Q')
  keys (types : AnnotationTypes) : Keyed.keys (p.annotationTypes types) = Keyed.keys types
  annotationTypes {types : AnnotationTypes} (h : ∀ entry ∈ types, entry.2.type.Throughout Q)
    : ∀ entry ∈ p.annotationTypes types, entry.2.type.Throughout Q
  bodies {bodies : Bodies} (h : ∀ entry ∈ bodies, entry.2.Throughout Q)
    : Yields (p.bodies bodies) fun bodies => ∀ entry ∈ bodies, entry.2.Throughout Q
  uriParameters (key : String) {ps : Properties} (h : ps.Throughout Q)
    : (p.uriParameters key ps).Throughout Q
  trait (s : Scope) (t : Trait) (around : B s.library) (h : Site.Types Q (t.sites s.lead))
    : Yields (p.trait s t) fun done? =>
        ∀ done, done? = some done → Site.Types Q' (done.sites s.lead)

namespace Pass.Turns

variable {B : Library → Prop} {p : Pass}

/-- What a pass makes of types it makes of those at any list of places. -/
theorem relates (turns : p.Turns B Q Q')
    : p.Relates (fun _ => True) (fun _ _ => True)
        fun l a b => B l → Site.Types Q a → Site.Types Q' b where
  joins l := {
    nil := fun _ _ => Site.types_nil
    append := fun first rest around h => by
      obtain ⟨here, there⟩ := Site.types_append.mp h
      exact Site.types_append.mpr ⟨first around here, rest around there⟩ }
  empties := turns.empties
  type s t _ := Alike.of_ok fun t' ok around h =>
    TypeNode.types_sites.mpr (turns.type s _ around (TypeNode.types_sites.mp h) t' ok)
  properties s ps _ := Alike.of_ok fun ps' ok around h =>
    Properties.types_sites.mpr (turns.properties s around (Properties.types_sites.mp h) ps' ok)
  parameters s key ps _ := Alike.of_ok fun ps' ok around h =>
    Properties.types_sites.mpr (turns.properties s around
      (turns.uriParameters key (Properties.types_sites.mp h)) ps' ok)
  annotations _ _ _ _ := Alike.of_ok fun _ _ _ _ => by simp
  annotationTypes s types _ := by
    apply Alike.of_ok
    intro types' ok
    refine ⟨(keys_onValues ok).trans (turns.keys types), fun around h => ?_⟩
    simp only [Site.types_flatMap, TypeNode.types_sites] at h ⊢
    have before := turns.annotationTypes h
    have each : ∀ entry ∈ p.annotationTypes types,
        Yields (do return { entry.2 with type := ← p.type s [.annotationType] entry.2.type })
          fun a : AnnotationType => a.type.Throughout Q' :=
      fun entry member => Yields.bind (turns.type s _ around (before entry member))
        fun _ own => Yields.ok own
    exact onValues_yields each types' ok
  bodies s site bodies _ := by
    apply Alike.of_ok
    intro bodies' ok around h
    obtain ⟨named, renamed, ok⟩ := bind_eq_ok_iff.mp ok
    have before := turns.bodies (Bodies.types_sites.mp h) named renamed
    exact Bodies.types_sites.mpr (onValues_yields (fun entry member =>
      turns.type s [.typeDeclaration, site] around (before entry member)) bodies' ok)
  trait s t _ := by
    apply Alike.of_ok
    intro done? ok done same around h
    exact turns.trait s t around h done? ok done same
  traitNode _ _ _ _ _ := by simp
  method _ _ _ _ _ := Site.types_method.mpr Site.types_nil

end Pass.Turns

/-- It holds of every type in a document. -/
def Document.Types (Q : TypeNode → Prop) (target : Target) (d : Document) : Prop :=
  ∀ path l, d.library.Reaches path l → Site.Types Q (d.sitesIn target path l)

/-- The types of a document are those at its places. -/
theorem Document.types_iff {target : Target} {d : Document}
    : d.Types Q target ↔ Site.Types Q (d.sites target) := by
  constructor
  · intro h t member
    obtain ⟨path, l, reaches, inside⟩ := mem_sites_iff.mp member
    exact h path l reaches t inside
  · intro h path l reaches t inside
    exact h t (mem_sites_iff.mpr ⟨path, l, reaches, inside⟩)

/-- What a pass makes of types it makes of all those in a document. -/
theorem Pass.Turns.run {B : Library → Prop} {p : Pass} (turns : p.Turns B Q Q') {target : Target}
    {d d' : Document} (h : p.run target d = .ok d')
    (around : ∀ path l, d.library.Reaches path l → B l) (types : d.Types Q target)
    : d'.Types Q' target := by
  intro path l' reaches
  have related := (turns.relates.run target fun _ _ _ _ _ => trivial).result d' h
  obtain ⟨l, reached, -, become⟩ := related.backward reaches
  exact become (around path l reached) (types path l reached)

end Raml
