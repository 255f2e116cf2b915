import Raml.Proofs.Annotations.Declared
import Raml.Proofs.Annotations.Inherited
import Raml.Proofs.Documents.Phases

/-! Linking annotations to their declarations when types are filled in.

The annotations of declared types are linked before anything is inherited, as seen from the library
that they are written in. All others are linked where they stand by then, those of the examples of
inherited properties too.
-/

namespace Raml

open Site (Becomes Gains appliedOf)

-----------------------------------------------------------------------------------------
-- One list of annotations
-----------------------------------------------------------------------------------------

/-- An annotation, and the same one linked as seen from a library. -/
def Library.Linking (l : Library) (x y : Annotation) : Prop :=
  y = x.link l ∧ y.declared.isSome = true

/-- An annotation that stands somewhere has no declaration in a library. -/
def Library.Misses (l : Library) (stands : List Target → Annotation → Prop) (e : Error) : Prop :=
  ∃ targets a, stands targets a ∧ (a.link l).declared = none ∧ e = .annotationUndefined a.name

/-- All annotations are linked, or one of them has no declaration. -/
theorem Annotations.linkDeclared_cases (l : Library) (g : Annotations)
    : (g.linkDeclared l = .ok (Keyed.mapValues (·.link l) g)
        ∧ ∀ entry ∈ g, (entry.2.link l).declared.isSome = true)
      ∨ ∃ e, g.linkDeclared l = .error e
        ∧ ∃ entry ∈ g, (entry.2.link l).declared = none
          ∧ e = .annotationUndefined entry.2.name := by
  apply Library.mapM_cases
  intro entry member
  cases linked : (entry.2.link l).declared with
  | some declared =>
      refine Or.inl ⟨?_, rfl⟩
      unfold Annotation.linkDeclared
      simp [linked]
  | none =>
      refine Or.inr ⟨_, ?_, entry, member, linked, rfl⟩
      unfold Annotation.linkDeclared
      simp [linked]

/-- What is known of all annotations at a place. -/
def Site.Only (stands : List Target → Annotation → Prop) (site : Site) : Prop :=
  ∀ targets a, (targets, a) ∈ site.applied → stands targets a

variable {stands : List Target → Annotation → Prop} (extra : List Target → Annotation → Prop)

/-- A list of annotations is linked one by one, and the first one that has no declaration is
reported. -/
theorem Annotations.linkDeclared_relates (l : Library) (lead : String) (targets : List Target)
    {g : Annotations} (known : (Site.annotations lead targets g).Only stands)
    : Alike (l.Misses stands) (g.linkDeclared l) (g.linkDeclared l) fun g' =>
        Becomes (fun _ => l.Linking) extra [.annotations lead targets g]
          [.annotations lead targets g'] := by
  rcases g.linkDeclared_cases l with ⟨ok, linked⟩ | ⟨e, error, entry, member, missing, rfl⟩
  · rw [ok]
    exact Alike.ok (.annotations (fun entry member => ⟨rfl, linked entry member⟩) lead)
  · rw [error]
    have here := known targets entry.2 (List.mem_map.mpr ⟨entry, member, rfl⟩)
    exact Alike.fail ⟨targets, entry.2, here, missing, rfl⟩

-----------------------------------------------------------------------------------------
-- Types
-----------------------------------------------------------------------------------------

/-- The hooks that link annotations do so for a type and for each of its examples. -/
theorem TypeHooks.link_relatesTop (s : Scope)
    : RelatesTop (s.library.Misses stands) (Site.Only stands)
        (Becomes (fun _ => s.library.Linking) extra) s.lead (Pass.linkHooks s) := by
  intro targets t _ known
  obtain ⟨-, known⟩ := List.forall_mem_cons.mp known
  obtain ⟨own, examples⟩ := List.forall_mem_cons.mp known
  have linked := Annotations.linkDeclared_relates extra s.library s.lead targets own
  unfold apply
  rw [show (Pass.linkHooks s).node t = .ok t from rfl, ok_bind]
  refine linked.bind fun annotations own => ?_
  refine (TypeNode.mapExamplesM_relates (R := Becomes (fun _ => s.library.Linking) extra)
    Site.joins_becomes s.lead fun e member => ?_).mono ?_
  · have here := examples _ (List.mem_map.mpr ⟨e, member, rfl⟩)
    have linked := Annotations.linkDeclared_relates extra s.library s.lead [.example] here
    exact linked.bind fun annotations linked => Alike.ok linked
  · intro t' ⟨example?, examples, same, related⟩ properties
    have node : Becomes (fun _ => s.library.Linking) extra [.typeNode t]
        [.typeNode (t'.withProperties properties)] := .of_nil rfl rfl
    subst same
    exact (node.append own).append related

/-- A type of the library hands on an annotation to those that are filled from it. -/
def Library.Lends (l : Library) (here : List Target) (a : Annotation) : Prop :=
  ∃ name base kind, l.getType? name = some base ∧ Target.OfType kind ∧ (here, a) ∈ base.handedOn kind

/-- An annotation stands at a known place of a library, or is handed on to it. -/
def Library.Holds (P : Library → Site → Prop) (l : Library) (here : List Target) (a : Annotation)
    : Prop :=
  ∃ site, P l site ∧ ((here, a) ∈ site.applied ∨ l.Lends here a)

/-- What a type gains when it inherits is lent by its library. -/
theorem TypeNode.gains_fill (l : Library) (t : TypeNode) (lead : String) {targets : List Target}
    (kind : Target.OfType targets)
    : Gains l.Lends (t.sites lead targets) ((t.fillFrom l.getType?).sites lead targets) := by
  rw [t.sites_withLead, (t.fillFrom l.getType?).sites_withLead]
  apply Becomes.withLead
  apply t.gains_fillFrom
  intro name _ base found at_ isOfType here x member
  have ofType : Target.OfType at_ := by
    rcases isOfType with rfl | rfl
    · exact kind
    · exact .declaration
  exact ⟨name, base, at_, found, ofType, member⟩

namespace Pass

variable {P : Library → Site → Prop}

/-- Why types are not filled in: an annotation that is found at a known place has no declaration, or
it is something else. -/
def Unlinked (P : Library → Site → Prop) (e : Error) : Prop :=
  (∀ name, e ≠ .annotationUndefined name) ∨ ∃ l, Library.Misses l (l.Holds P) e

/-- What is linked when types are filled in has been there before, or was handed on by a type. -/
abbrev Fills (l : Library) : List Site → List Site → Prop :=
  Becomes (fun _ => l.Linking) fun here y => ∃ x, l.Lends here x ∧ l.Linking x y

/-- To inherit first and to link afterwards links both what a type has and what it gains. -/
theorem fill_relates (s : Scope) (targets : List Target) (t : TypeNode)
    (kind : Target.OfType targets) (known : ∀ site ∈ t.sites s.lead targets, P s.library site)
    : Alike (Unlinked P) (t.fill s.library >>= (·.visit (linkHooks s) targets))
        (t.fill s.library >>= (·.visit (linkHooks s) targets)) fun t' =>
          Fills s.library (t.sites s.lead targets) (t'.sites s.lead targets) := by
  rcases t.fill_cases s.library with ⟨ok, -⟩ | ⟨name, -, -, error⟩
  · have gains := t.gains_fill s.library s.lead kind
    obtain ⟨-, others⟩ := Site.gains_iff.mp gains
    have self : P s.library (.typeNode t) := known _ (by simp [TypeNode.sites_eq])
    have only : ∀ site ∈ (t.fillFrom s.library.getType?).sites s.lead targets,
        site.Only (s.library.Holds P) := by
      intro site inside here a member
      rcases others here a (List.mem_flatMap.mpr ⟨site, inside, member⟩) with before | lent
      · obtain ⟨place, within, here⟩ := List.mem_flatMap.mp before
        exact ⟨place, known place within, Or.inl here⟩
      · exact ⟨_, self, Or.inr lent⟩
    rw [ok, ok_bind]
    have visited := TypeHooks.visit_relates Site.joins_becomes
      (TypeHooks.link_relatesTop (fun _ _ => False) s) (fun _ => rfl) targets kind only
    refine (visited.allow fun e missed => Or.inr ⟨_, missed⟩).mono fun t' linked => ?_
    exact gains.trans_becomes linked
  · rw [error, error_bind]
    exact Alike.fail (Or.inl nofun)

/-- This is what the pass does wherever there are types, and it fails only where a name denotes
nothing. -/
theorem fillTypes_relates : fillTypes.Relates (Unlinked P) P Fills := by
  have changes : fillTypes.ChangesTypes := {
    empties := ⟨fun _ => rfl, fun _ _ => rfl, rfl⟩
    annotationTypes := fun _ => rfl
    bodies := fun _ => rfl
    uriParameters := fun _ _ => rfl
    trait := fun _ _ => rfl }
  apply changes.relates
  · intro s targets t kind known
    exact fill_relates s targets t kind known
  · intro s ps known
    rw [propertySites_eq, List.forall_mem_flatMap] at known
    have each : Alike (Unlinked P) (fillTypes.properties s ps) (fillTypes.properties s ps)
        fun ps' => Fills s.library
          (ps.flatMap fun entry => entry.2.type.sites s.lead [.typeDeclaration])
          (ps'.flatMap fun entry => entry.2.type.sites s.lead [.typeDeclaration]) := by
      apply Site.joins_becomes.mapM fun entry : String × Property =>
        entry.2.type.sites s.lead [.typeDeclaration]
      intro (key, p) member
      have filled := fill_relates s [.typeDeclaration] p.type .declaration (known _ member)
      simpa only [bind_assoc] using filled.bind fun type related =>
        Alike.ok (a := (key, { p with type })) related
    simpa only [propertySites_eq] using each
  · intro s targets g known
    have only : (Site.annotations s.lead targets g).Only (s.library.Holds P) :=
      fun here a member => ⟨_, known, Or.inl member⟩
    exact (Annotations.linkDeclared_relates _ s.library s.lead targets only).allow
      fun e missed => Or.inr ⟨_, missed⟩

end Pass

end Raml
