import Raml.Proofs.Annotations.Kept
import Raml.Proofs.Annotations.Origins
import Raml.Proofs.Annotations.Written
import Raml.Proofs.Checking.Unused
import Raml.Proofs.Examples.Directories
import Raml.Proofs.Traits.Written

/-! Annotations that stand where their declarations do not allow it: which of them parsing refuses.

An annotation that is refused is one that was written at such a place, unless it is a copy of one of
two kinds: what a declaration of an annotation inherits from its type, and the annotations of
examples that are inherited.
-/

namespace Raml

open Site (appliedOf)
open Yaml (Node)

-----------------------------------------------------------------------------------------
-- Places that are not allowed
-----------------------------------------------------------------------------------------

/-- An annotation is linked to a declaration that does not allow the place. -/
def Annotation.Refused (a : Annotation) (here : List Target) : Prop :=
  ∃ w, a.declared = some w ∧ w.allowsAny here = false

/-- What the name of an annotation denotes in a library does not allow the place. -/
def Library.Forbids (l : Library) (x : Annotation) (here : List Target) : Prop :=
  ∃ w, l.getAnnotationType? x.name = some w ∧ w.allowsAny here = false

namespace Document

/-- An annotation is written where what its name denotes does not allow it. -/
def Violates (target : Target) (n : Document) (name : String) : Prop :=
  ∃ path l here x, n.Applies target path l here x ∧ x.name = name ∧ l.Forbids x here

/-- A copy of an annotation stands where what it is linked to does not allow it. -/
inductive Misplaces (target : Target) (n f : Document) (name : String) : Prop where
  /-- It belongs to a type, and the declaration of an annotation has inherited it. -/
  | annotationType {path more : List String} {l m l' : Library} {x a : Annotation}
      (reaches : n.library.Reaches path l) (writes : l.Writes more m [.typeDeclaration] x)
      (stands : f.Applies target path l' [.annotationType] a) (links : m.Links x a)
      (named : x.name = name) (forbids : m.Forbids x [.annotationType])
  /-- It belongs to an example, and what its name denotes where the copy stands counts. -/
  | ofExample {path more : List String} {l m l' : Library} {x a : Annotation}
      (reaches : n.library.Reaches path l) (writes : l.Writes more m [.example] x)
      (stands : f.Applies target path l' [.example] a) (links : l.Links x a)
      (named : x.name = name) (forbids : l.Forbids x [.example])

end Document

namespace AnnotationType

variable {w w' : AnnotationType}

/-- Only the list of places counts, not what else is declared. -/
theorem allowsAny_congr (same : w'.allowedTargets = w.allowedTargets) (here : List Target)
    : w'.allowsAny here = w.allowsAny here := by
  rw [allowsAny, allowsAny, same]

/-- A body counts as a type as well. -/
theorem allowsAny_of_body {site : Target} (h : w.allowsAny [.typeDeclaration, site] = false)
    : w.allowsAny [.typeDeclaration] = false := by
  simp only [allowsAny, List.any_cons, List.any_nil, Bool.or_false, Bool.or_eq_false_iff] at h ⊢
  exact ⟨h.1, h.2.1⟩

end AnnotationType

namespace Library

variable {l m r : Library} {x a : Annotation} {here : List Target}

/-- Libraries with the same declarations forbid the same. -/
theorem SameAnnotations.forbids_iff (same : l.SameAnnotations m)
    : m.Forbids x here ↔ l.Forbids x here := by
  have related := same x.name
  unfold Forbids
  generalize l.getAnnotationType? x.name = before, m.getAnnotationType? x.name = after at related
  cases related with
  | none => exact Iff.rfl
  | some targets =>
      simp only [Option.some.injEq, exists_eq_left', AnnotationType.allowsAny_congr targets]

/-- What is forbidden in a body, which counts as a type too, is forbidden for types. -/
theorem Forbids.of_body {site : Target} (h : l.Forbids x [.typeDeclaration, site])
    : l.Forbids x [.typeDeclaration] := by
  obtain ⟨w, found, refuses⟩ := h
  exact ⟨w, found, AnnotationType.allowsAny_of_body refuses⟩

/-- Whether a place is forbidden can be computed. -/
theorem forbids_iff_any
    : l.Forbids x here
      ↔ (l.getAnnotationType? x.name).any (fun w => !w.allowsAny here) = true := by
  simp [Forbids, Option.any_eq_true]

instance : Decidable (l.Forbids x here) := decidable_of_iff _ forbids_iff_any.symm

/-- An annotation that has just been linked is refused where its library forbids it. -/
theorem refused_link_iff (loose : x.declared = none)
    : (x.link l).Refused here ↔ l.Forbids x here := by
  unfold Annotation.Refused Forbids
  rw [x.declared_link loose]

/-- An annotation is refused for what its name denotes in the library that it is linked in. -/
theorem Links.refused_iff (ok : l.resolve = .ok r) (loose : x.declared = none)
    (links : l.Links x a)
    : a.Refused here ↔ l.Forbids x here := by
  rcases links with same | ⟨r', ok', same⟩
  · rw [same, refused_link_iff loose, (SameAnnotations.scope ok).forbids_iff]
  · rw [same, refused_link_iff loose, (SameAnnotations.of_resolve ok').forbids_iff]

end Library

/-- Violations can be looked for among the annotations of a document. -/
theorem Document.violates_iff {target : Target} {n : Document} {name : String}
    : n.Violates target name
      ↔ ∃ x ∈ n.applied target, x.2.2.name = name ∧ x.1.Forbids x.2.2 x.2.1 := by
  constructor
  · rintro ⟨path, l, here, x, applies, named, forbids⟩
    exact ⟨(l, here, x), mem_applied_iff.mpr ⟨path, applies⟩, named, forbids⟩
  · rintro ⟨⟨l, here, x⟩, member, named, forbids⟩
    obtain ⟨path, applies⟩ := mem_applied_iff.mp member
    exact ⟨path, l, here, x, applies, named, forbids⟩

instance {target : Target} {n : Document} {name : String} : Decidable (n.Violates target name) :=
  decidable_of_iff _ Document.violates_iff.symm

-----------------------------------------------------------------------------------------
-- The review
-----------------------------------------------------------------------------------------

namespace Review

variable {site : Site} {here : List Target} {a : Annotation}

/-- Only for an annotation that is refused does the check of a place fail. -/
theorem refused_of_annotationTargets {e : Error} (h : annotationTargets site = .error e)
    : ∃ here a, (here, a) ∈ site.applied ∧ a.Refused here
        ∧ e = .annotationNotAllowed a.name here := by
  cases site with
  | annotations lead targets g =>
      obtain ⟨⟨key, a⟩, member, failed⟩ := exists_of_forM_eq_error h
      refine ⟨targets, a, List.mem_map.mpr ⟨_, member, rfl⟩, ?_⟩
      dsimp only at failed
      split at failed
      · rename_i w declared
        split at failed
        · cases failed
        · rename_i refused
          cases failed
          exact ⟨⟨w, declared, Bool.not_eq_true _ ▸ refused⟩, rfl⟩
      · cases failed
  | typeNode | trait | method => cases h

/-- Where the check of a place succeeds, nothing is refused there. -/
theorem allowed_of_annotationTargets (h : annotationTargets site = .ok ())
    (member : (here, a) ∈ site.applied)
    : ¬a.Refused here := by
  cases site with
  | annotations lead targets g =>
      obtain ⟨⟨key, _⟩, inside, same⟩ := List.mem_map.mp member
      cases same
      rintro ⟨w, declared, refused⟩
      have passed := forM_eq_ok_iff.mp h (key, a) inside
      simp [declared, refused] at passed
  | typeNode | trait | method => cases member

variable {settings : Settings} {target : Target} {d : Document}

/-- What a review reports as refused stands in the document and is. -/
theorem run_refused {name : String} {places : List Target}
    (h : run settings target d = .error (.annotationNotAllowed name places))
    : ∃ path l a, d.Applies target path l places a ∧ a.Refused places ∧ a.name = name := by
  rw [run_eq] at h
  rcases bind_eq_error_iff.mp h with unknown | ⟨_, -, h⟩
  · have keys : FailsEarly ((d.sites target).forM unknownKey) :=
      Fails.forM fun site _ => unknownKey_early site
    exact absurd rfl ((keys.error _ unknown).allowed name places)
  rcases bind_eq_error_iff.mp h with refused | ⟨_, -, h⟩
  · obtain ⟨site, inside, failed⟩ := exists_of_forM_eq_error refused
    obtain ⟨here, a, member, refused, same⟩ := refused_of_annotationTargets failed
    cases same
    obtain ⟨path, l, reaches, within⟩ := Document.mem_sites_iff.mp inside
    exact ⟨path, l, a, ⟨reaches, List.mem_flatMap.mpr ⟨site, within, member⟩⟩, refused, rfl⟩
  · split at h
    · cases h
    · unfold runTraits at h
      split at h
      · cases h
      · exact absurd h (examples_ne id)

/-- The name of the annotation that a review refuses, if there is one, and where it stands. -/
def refused? (settings : Settings) (target : Target) (d : Document)
    : Option (String × List Target) :=
  match run settings target d with
  | .error (.annotationNotAllowed name places) => some (name, places)
  | _ => none

/-- The review fails for the first annotation that is refused. -/
theorem run_of_refused? {name : String} {places : List Target}
    (h : refused? settings target d = some (name, places))
    : run settings target d = .error (.annotationNotAllowed name places) := by
  unfold refused? at h
  split at h
  · rename_i failed
    cases h
    exact failed
  · cases h

/-- In a document that passes its review, nothing is refused. -/
theorem allowed_of_run (h : run settings target d = .ok ()) {path : List String} {l : Library}
    (applies : d.Applies target path l here a)
    : ¬a.Refused here := by
  rw [run_eq] at h
  obtain ⟨-, h⟩ := unit_bind_eq_ok_iff.mp h
  obtain ⟨targets, -⟩ := unit_bind_eq_ok_iff.mp h
  obtain ⟨site, within, member⟩ := List.mem_flatMap.mp applies.member
  have inside := Document.mem_sites_iff.mpr ⟨path, l, applies.reaches, within⟩
  exact allowed_of_annotationTargets (forM_eq_ok_iff.mp targets site inside) member

end Review

-----------------------------------------------------------------------------------------
-- From phase to phase
-----------------------------------------------------------------------------------------

namespace Document

variable {target : Target} {n f : Document} {path : List String} {l l' : Library}
variable {here : List Target} {a x : Annotation}

/-- In a document without links nothing that is written at a declared type is linked. -/
theorem Loose.of_writes (loose : n.Loose target) {more : List String} {m : Library}
    (reaches : n.library.Reaches path l) (writes : l.Writes more m here x)
    : x.declared = none :=
  loose.applied (applies_of_writes reaches writes)

/-- What is refused once types are filled in was written where it is not allowed, or is a copy that
stands where it is not allowed. -/
theorem origin_of_refused (ok : n.fill target = .ok f) (loose : n.Loose target)
    (stands : f.Applies target path l' here a) (refused : a.Refused here)
    : n.Violates target a.name ∨ n.Misplaces target f a.name := by
  obtain ⟨r, resolved, -⟩ := bind_eq_ok_iff.mp ok
  have resolves {path : List String} {m : Library} (reaches : n.library.Reaches path m)
      : ∃ r, m.resolve = .ok r :=
    Library.resolve_of_reaches resolved reaches
  obtain ⟨l, reaches, -, becomes⟩ := (becomes_of_fill ok).backward stands.reaches
  obtain ⟨own, ofOwn⟩ := resolves reaches
  rcases becomes.backward here a stands.member with ⟨x, member, links, -⟩ | ⟨copied, -⟩
  · have written : n.Applies target path l here x := ⟨reaches, member⟩
    have forbids := (links.refused_iff ofOwn (loose.applied written)).mp refused
    exact Or.inl ⟨path, l, here, x, written, links.name_eq.symm, forbids⟩
  cases copied with
  | @inherited more m place x writes goes other links =>
      have written : n.Applies target (path ++ more) m place x := applies_of_writes reaches writes
      obtain ⟨r', ofOther⟩ := resolves written.reaches
      have forbids := (links.refused_iff ofOther (loose.applied written)).mp refused
      have violates (there : m.Forbids x place) : n.Violates target a.name :=
        ⟨_, m, place, x, written, links.name_eq.symm, there⟩
      rcases goes with same | ⟨same, ofType⟩
      · exact Or.inl (violates (same ▸ forbids))
      · subst same
        cases ofType with
        | declaration => exact Or.inl (violates forbids)
        | body site => exact Or.inl (violates forbids.of_body)
        | annotationType =>
            exact Or.inr (.annotationType reaches writes stands links links.name_eq.symm forbids)
  | @ofExample more m x writes stays links =>
      subst stays
      have forbids := (links.refused_iff ofOwn (loose.of_writes reaches writes)).mp refused
      exact Or.inr (.ofExample reaches writes stands links links.name_eq.symm forbids)

/-- What is written against a declaration is still there once types are filled in, linked to it, and
refused. -/
theorem refused_of_violates {name : String} (ok : n.fill target = .ok f) (loose : n.Loose target)
    (h : n.Violates target name)
    : ∃ path l' here a, f.Applies target path l' here a ∧ a.Refused here := by
  obtain ⟨path, l, here, x, written, -, forbids⟩ := h
  obtain ⟨r, resolved, -⟩ := bind_eq_ok_iff.mp ok
  obtain ⟨own, ofOwn⟩ := Library.resolve_of_reaches resolved written.reaches
  obtain ⟨l', reaches, -, becomes⟩ := (becomes_of_fill ok).forward written.reaches
  obtain ⟨a, member, links, -⟩ := becomes.forward here x written.member
  have refused := (links.refused_iff ofOwn (loose.applied written)).mpr forbids
  exact ⟨path, l', here, a, ⟨reaches, member⟩, refused⟩

/-- A misplaced copy is refused for the declaration that it was linked to where it was written. -/
theorem refused_of_misplaces {name : String} (ok : n.fill target = .ok f) (loose : n.Loose target)
    (h : n.Misplaces target f name)
    : ∃ path l' here a, f.Applies target path l' here a ∧ a.Refused here := by
  obtain ⟨r, resolved, -⟩ := bind_eq_ok_iff.mp ok
  cases h with
  | @annotationType _ _ _ _ l' x a reaches writes stands links _ forbids =>
      obtain ⟨r', ofOther⟩ :=
        Library.resolve_of_reaches resolved (reaches.trans writes.reaches)
      have refused := (links.refused_iff ofOther (loose.of_writes reaches writes)).mpr forbids
      exact ⟨_, l', _, a, stands, refused⟩
  | @ofExample _ _ _ _ l' x a reaches writes stands links _ forbids =>
      obtain ⟨r', ofOwn⟩ := Library.resolve_of_reaches resolved reaches
      have refused := (links.refused_iff ofOwn (loose.of_writes reaches writes)).mpr forbids
      exact ⟨_, l', _, a, stands, refused⟩

end Document

namespace Parser

variable {p : Parser} {target : Target} {mediaTypes : Option (List String)}
variable {d₀ d n f s d' : Document} {path : List String} {here : List Target} {a : Annotation}

/-- All that is refused in the end stands there once types are filled in, in one place or another. -/
theorem Phases.stands_of_applies (phases : p.Phases target mediaTypes d n f s d')
    (bare : f.BareUses target) {l' : Library} (stands : d'.Applies target path l' here a)
    : ∃ path l, f.Applies target path l here a := by
  obtain ⟨l, reaches, -, gains⟩ := (phases.gains bare).backward stands.reaches
  rcases (Site.gains_iff.mp gains).2 here a stands.member with own | shared
  · exact ⟨path, l, reaches, own⟩
  · obtain ⟨more, m, applies⟩ := Document.applies_of_shares reaches shared
    exact ⟨_, m, applies⟩

/-- Where something is refused once types are filled in, parsing fails. -/
theorem fails_of_refused (written : d₀.Written) (loads : p.Loads d₀ d)
    (normal : d.normalize target mediaTypes = .ok n)
    (refuses : ∀ f, n.fill target = .ok f
      → ∃ path l here a, f.Applies target path l here a ∧ a.Refused here)
    : ∃ e, p.resolve target mediaTypes d₀ = .error e := by
  cases resolved : p.resolve target mediaTypes d₀ with
  | error e => exact ⟨e, rfl⟩
  | ok d' =>
      obtain ⟨_, f, s, phases, passed⟩ := phases_of_resolve loads resolved
      cases normal.symm.trans phases.normal
      obtain ⟨path, l, here, a, stands, refused⟩ := refuses f phases.filled
      obtain ⟨l', reaches, -, gains⟩ :=
        (phases.gains (phases.bareUses written loads)).forward stands.reaches
      have member := (Site.gains_iff.mp gains).1 stands.member
      exact absurd refused (Review.allowed_of_run passed ⟨reaches, member⟩)

/-- Only the review fails for an annotation that is not allowed. -/
theorem phases_of_notAllowed (written : d₀.Written) (loads : p.Loads d₀ d) {name : String}
    {places : List Target}
    (h : p.resolve target mediaTypes d₀ = .error (.annotationNotAllowed name places))
    : ∃ n f s d', p.Phases target mediaTypes d n f s d'
        ∧ Review.run p.settings target d' = .error (.annotationNotAllowed name places) := by
  have agree : Source.Agree (fun e => ∀ name places, e ≠ .annotationNotAllowed name places)
      p.source p.source (fun _ _ => True) fun _ => True := by
    refine ⟨fun directory file kind _ => ?_⟩
    refine (Source.include_agrees rfl (fun _ early => early.allowed) ?_).mono fun _ _ => trivial
    exact fun _ _ _ => nofun
  have examples (pos : Position) (e : Example)
      : (Demands.reads (fun _ _ => True) fun _ => True).ofExample pos e :=
    ⟨fun _ _ _ _ => trivial, fun _ => trivial⟩
  have filled := filled_alike agree (fun _ early => early.allowed) target mediaTypes
    (written.location loads) fun spot _ => Spot.meets_of_forall examples (fun _ => trivial) spot
  rw [resolve_of_loads loads, complete_eq_review] at h
  rcases bind_eq_error_iff.mp h with failed | ⟨d', ok, h⟩
  · exact absurd rfl (filled.error _ failed name places)
  · obtain ⟨n, f, s, phases⟩ := phases_of_filled ok
    rcases bind_eq_error_iff.mp h with reviewed | ⟨_, _, other⟩
    · exact ⟨n, f, s, d', phases, reviewed⟩
    · cases other

/-- Parsing fails for an annotation that is not allowed where it stands only if one of that name is
written where it is not allowed, or is copied to where it is not: by the declaration of an
annotation that inherits from a type, or with an example that is inherited. Wherever there is such
an annotation or such a copy, parsing fails. -/
theorem resolve_annotationNotAllowed (written : d₀.Written) (loads : p.Loads d₀ d)
    : (∀ name places, p.resolve target mediaTypes d₀ = .error (.annotationNotAllowed name places)
        → ∃ n f, d.normalize target mediaTypes = .ok n ∧ n.fill target = .ok f
          ∧ (n.Violates target name ∨ n.Misplaces target f name))
      ∧ ∀ n name, d.normalize target mediaTypes = .ok n
        → (n.Violates target name → ∃ e, p.resolve target mediaTypes d₀ = .error e)
          ∧ ∀ f, n.fill target = .ok f → n.Misplaces target f name
            → ∃ e, p.resolve target mediaTypes d₀ = .error e := by
  have loose {n : Document} (normal : d.normalize target mediaTypes = .ok n) : n.Loose target :=
    (written.loose loads).of_normalize normal
  constructor
  · intro name places failed
    obtain ⟨n, f, s, d', phases, reviewed⟩ := phases_of_notAllowed written loads failed
    obtain ⟨path, l', a, stands, refused, rfl⟩ := Review.run_refused reviewed
    obtain ⟨path, l, stands⟩ := phases.stands_of_applies (phases.bareUses written loads) stands
    refine ⟨n, f, phases.normal, phases.filled, ?_⟩
    exact Document.origin_of_refused phases.filled (loose phases.normal) stands refused
  · intro n name normal
    constructor
    · intro violates
      apply fails_of_refused written loads normal
      exact fun f filled => Document.refused_of_violates filled (loose normal) violates
    · intro f filled misplaces
      apply fails_of_refused written loads normal
      intro f' filled'
      cases filled.symm.trans filled'
      exact Document.refused_of_misplaces filled (loose normal) misplaces

/-- A document in which an annotation is meant for methods, and is applied to the document itself. -/
def leaflet : Node :=
  .map [(.str "title", .str "Leaflet"),
    (.str "annotationTypes", .map [(.str "tag",
      .map [(.str "type", .str "string"), (.str "allowedTargets", .str "Method")])]),
    (.str "(tag)", .str "x")]

/-- The annotation is refused where it is written, at the document itself. -/
theorem resolve_annotationNotAllowed_leaflet
    : ∃ d₀ d n f s d' : Document, d₀.Written ∧ ({} : Parser).Loads d₀ d
        ∧ ({} : Parser).Phases .api (some d₀.mediaType) d n f s d'
        ∧ ({} : Parser).resolve .api (some d₀.mediaType) d₀
          = .error (.annotationNotAllowed "tag" [.api])
        ∧ (n.Violates .api "tag" ∨ n.Misplaces .api f "tag") := by
  obtain ⟨d₀, d, n, f, s, d', written, loads, phases, checked⟩ := by
    apply exists_phases (p := {}) leaflet fun _ d' =>
      decide (Review.refused? {} .api d' = some ("tag", [.api]))
    decide +kernel
  have failed := (phases.resolve_error_iff loads).mpr
    (Review.run_of_refused? (of_decide_eq_true checked))
  obtain ⟨n', f', normal, filled, origin⟩ :=
    (resolve_annotationNotAllowed written loads).1 "tag" [.api] failed
  cases phases.normal.symm.trans normal
  cases phases.filled.symm.trans filled
  exact ⟨d₀, d, n, f, s, d', written, loads, phases, failed, origin⟩

/-- A document in which an annotation is meant for types, and the declaration of another annotation
has such a type. -/
def glossary : Node :=
  .map [(.str "title", .str "Glossary"),
    (.str "annotationTypes", .map [
      (.str "tag", .map [(.str "type", .str "string"), (.str "allowedTargets", .str "TypeDeclaration")]),
      (.str "note", .str "Word")]),
    (.str "types", .map [(.str "Word",
      .map [(.str "type", .str "string"), (.str "(tag)", .str "x")])]),
    (.str "(note)", .str "y")]

/-- Everything in the document is written where it is allowed, and still parsing fails for an
annotation. -/
theorem not_resolve_annotationNotAllowed
    : ¬∀ (d₀ d n : Document) (name : String) (places : List Target), d₀.Written
        → ({} : Parser).Loads d₀ d → d.normalize .api (some d₀.mediaType) = .ok n
        → ({} : Parser).resolve .api (some d₀.mediaType) d₀
          = .error (.annotationNotAllowed name places)
        → n.Violates .api name := by
  intro only
  obtain ⟨d₀, d, n, f, s, d', written, loads, phases, checked⟩ := by
    apply exists_phases (p := {}) glossary fun n d' =>
      decide (Review.refused? {} .api d' = some ("tag", [.annotationType])
        ∧ ¬n.Violates .api "tag")
    decide +kernel
  obtain ⟨refused, allowed⟩ := of_decide_eq_true checked
  have failed := (phases.resolve_error_iff loads).mpr (Review.run_of_refused? refused)
  exact allowed (only d₀ d n "tag" [.annotationType] written loads phases.normal failed)

end Parser

end Raml
