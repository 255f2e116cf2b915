import Raml.Proofs.Annotations.Passes
import Raml.Proofs.Documents.Parts
import Raml.Proofs.Resolution.Inheritance
import Raml.Proofs.Tables

/-! Annotations that types inherit: they come from a declared type, or from the properties of one.
-/

namespace Raml

open Resolver
open Site (Becomes Gains appliedOf)

/-- Entries are added behind the others. -/
theorem Keyed.addMissing_eq {α : Type} (m more : Keyed α)
    : ∃ added, Keyed.addMissing m more = m ++ added ∧ added ⊆ more := by
  induction more generalizing m with
  | nil => exact ⟨[], by simp [Keyed.addMissing], by simp⟩
  | cons entry more ih =>
      have step : Keyed.addMissing m (entry :: more)
          = Keyed.addMissing (if m.has entry.1 then m else m ++ [entry]) more := rfl
      rw [step]
      split
      · obtain ⟨added, same, within⟩ := ih m
        exact ⟨added, same, fun entry member => .tail _ (within member)⟩
      · obtain ⟨added, same, within⟩ := ih (m ++ [entry])
        exact ⟨entry :: added, by simpa using same, List.cons_subset_cons _ within⟩

-----------------------------------------------------------------------------------------
-- One type
-----------------------------------------------------------------------------------------

namespace TypeNode

/-- The annotations of examples in order. -/
def exampleAnnotations (t : TypeNode) : List (List Target × Annotation) :=
  t.allExamples.flatMap fun e => e.annotations.map fun (_, a) => ([.example], a)

/-- The annotations that others take from a type, at a place that counts as any of some targets: its
own ones, and all those in its properties. -/
def handedOn (targets : List Target) (t : TypeNode) : List (List Target × Annotation) :=
  t.declaration.annotations.map (fun (_, a) => (targets, a))
    ++ appliedOf (propertySites "" t.properties)

/-- A type has the annotations of its examples and those that it hands on. -/
theorem mem_appliedOf_sites {t : TypeNode} {targets : List Target} {x : List Target × Annotation}
    : x ∈ appliedOf (t.sites "" targets) ↔ x ∈ t.exampleAnnotations ∨ x ∈ t.handedOn targets := by
  rw [sites_eq, handedOn, exampleAnnotations]
  simp only [Site.appliedOf_append, Site.appliedOf_cons, Site.applied, Site.appliedOf_map,
    List.mem_append, List.nil_append]
  constructor
  · intro member
    rcases member with (own | inExample) | inProperty
    · exact Or.inr (Or.inl own)
    · exact Or.inl inExample
    · exact Or.inr (Or.inr inProperty)
  · intro member
    rcases member with inExample | own | inProperty
    · exact Or.inl (Or.inr inExample)
    · exact Or.inl (Or.inl own)
    · exact Or.inr inProperty

variable {find : String → Option TypeNode} {t : TypeNode} {targets : List Target}

/-- Where it is taken to only matters to the type's own annotations. -/
theorem mem_handedOn_cases {x : Annotation} {at_ : List Target} (h : (at_, x) ∈ t.handedOn targets)
    : ((at_, x) ∈ t.handedOn [.typeDeclaration])
      ∨ at_ = targets ∧ ([.typeDeclaration], x) ∈ t.handedOn [.typeDeclaration] := by
  rcases List.mem_append.mp h with own | inside
  · obtain ⟨entry, member, same⟩ := List.mem_map.mp own
    cases same
    exact Or.inr ⟨rfl, List.mem_append_left _ (List.mem_map.mpr ⟨entry, member, rfl⟩)⟩
  · exact Or.inl (List.mem_append_right _ inside)

/-- From its base, a type takes the annotations with names that it does not have. -/
theorem annotations_filled (t base : TypeNode) (properties : Properties)
    : ∃ added ⊆ base.declaration.annotations,
      (t.filled (some base) properties).declaration.annotations
        = t.declaration.annotations ++ added := by
  obtain ⟨added, annotations, taken⟩ :=
    Keyed.addMissing_eq t.declaration.annotations base.declaration.annotations
  refine ⟨added, taken, ?_⟩
  rw [filled_some]
  exact annotations

/-- From its base, a type takes all properties or none. -/
theorem properties_filled (t base : TypeNode) (properties : Properties)
    : (t.filled (some base) properties).properties
      = if t.object.isEmpty then base.properties else properties := by
  rw [filled_some]
  cases t.object.isEmpty <;> simp [TypeNode.properties]

/-- A type that sets no facets of objects has no properties. -/
theorem properties_of_isEmpty (empty : t.object.isEmpty = true) : t.properties = [] := by
  simp only [ObjectFacets.isEmpty, Bool.and_eq_true, List.isEmpty_iff] at empty
  exact empty.1.1.1.1.1

/-- What a type hands on when it is filled in: what it did before, and what its base hands on. -/
theorem handedOn_filled {extra : List Target → Annotation → Prop} {base? : Option TypeNode}
    {properties : Properties}
    (inside : Gains extra (propertySites "" t.properties) (propertySites "" properties))
    (lent : ∀ base ∈ base?, ∀ here x, (here, x) ∈ base.handedOn targets → extra here x)
    : t.handedOn targets ⊆ (t.filled base? properties).handedOn targets
      ∧ ∀ here y, (here, y) ∈ (t.filled base? properties).handedOn targets
        → (here, y) ∈ t.handedOn targets ∨ extra here y := by
  obtain ⟨kept, others⟩ := Site.gains_iff.mp inside
  cases base? with
  | none =>
      constructor
      · intro x member
        rcases List.mem_append.mp member with own | member
        · exact List.mem_append_left _ own
        · exact List.mem_append_right _ (kept member)
      · intro here y member
        rcases List.mem_append.mp member with own | member
        · exact Or.inl (List.mem_append_left _ own)
        · exact (others here y member).imp_left (List.mem_append_right _)
  | some base =>
      obtain ⟨added, taken, own⟩ := annotations_filled t base properties
      simp only [handedOn, own, properties_filled, List.map_append]
      constructor
      · intro x member
        rcases List.mem_append.mp member with own | member
        · exact List.mem_append_left _ (List.mem_append_left _ own)
        · apply List.mem_append_right
          split
          · rename_i empty
            rw [properties_of_isEmpty empty] at member
            cases member
          · exact kept member
      · intro here y member
        rcases List.mem_append.mp member with member | member
        · rcases List.mem_append.mp member with own | member
          · exact Or.inl (List.mem_append_left _ own)
          · obtain ⟨entry, member, same⟩ := List.mem_map.mp member
            apply Or.inr
            apply lent base rfl here y
            exact List.mem_append_left _ (List.mem_map.mpr ⟨entry, taken member, same⟩)
        · split at member
          · exact Or.inr (lent base rfl here y (List.mem_append_right _ member))
          · exact (others here y member).imp_left (List.mem_append_right _)

/-- What a type has when it is filled in: what it had, and what its base hands on. -/
theorem gains_filled {extra : List Target → Annotation → Prop} {base? : Option TypeNode}
    {properties : Properties}
    (inside : Gains extra (propertySites "" t.properties) (propertySites "" properties))
    (lent : ∀ base ∈ base?, ∀ here x, (here, x) ∈ base.handedOn targets → extra here x)
    : Gains extra (t.sites "" targets) ((t.filled base? properties).sites "" targets) := by
  have examples : (t.filled base? properties).exampleAnnotations = t.exampleAnnotations := by
    cases base? with
    | none => rfl
    | some base =>
        rw [filled_some]
        rfl
  obtain ⟨kept, others⟩ := handedOn_filled inside lent
  refine Site.gains_iff.mpr ⟨fun x member => ?_, fun here y member => ?_⟩
  · rw [mem_appliedOf_sites] at member ⊢
    rw [examples]
    exact member.imp_right fun own => kept own
  · rw [mem_appliedOf_sites] at member ⊢
    rw [examples] at member
    rcases member with inExample | member
    · exact Or.inl (Or.inl inExample)
    · exact (others here y member).imp_left Or.inr

/-- A type gains annotations from its base only, for itself or its properties, by induction on the
type. -/
theorem gains_fillFrom {extra : List Target → Annotation → Prop} (t : TypeNode)
    {targets : List Target}
    (lent : ∀ name ∈ t.references, ∀ base, find name = some base →
      ∀ kind, kind = targets ∨ kind = [.typeDeclaration] →
        ∀ here x, (here, x) ∈ base.handedOn kind → extra here x)
    : Gains extra (t.sites "" targets) ((t.fillFrom find).sites "" targets) := by
  induction t using induct generalizing targets with
  | step t ih =>
      cases resolved : t.resolved with
      | true =>
          rw [fillFrom_of_resolved resolved]
          exact .of_eq rfl
      | false =>
          have asked (name : String) (mentioned : t.base? = some name
              ∨ ∃ key p, (key, p) ∈ t.properties ∧ name ∈ p.type.references)
              : name ∈ t.references :=
            (mem_references resolved).mpr mentioned
          rw [fillFrom_eq resolved]
          apply gains_filled
          · rw [propertySites_eq, propertySites_eq]
            apply Site.joins_becomes.map fun entry : String × Property =>
              entry.2.type.sites "" [.typeDeclaration]
            intro entry member
            apply ih entry.1 entry.2 member
            intro name mentioned base found kind isDeclaration
            have known := asked name (Or.inr ⟨entry.1, entry.2, member, mentioned⟩)
            exact lent name known base found kind (Or.inr (isDeclaration.elim id id))
          · intro base found here x member
            obtain ⟨name, base?, found⟩ := Option.bind_eq_some_iff.mp found
            exact lent name (asked name (Or.inl base?)) base found targets (Or.inl rfl) here x member

end TypeNode

/-- An annotation as it is when types are resolved: linked, unless it is that of an example. -/
def Annotation.settle (l : Library) (targets : List Target) (a : Annotation) : Annotation :=
  if targets = [.example] then a else a.link l

/-- Annotations of examples are as they were. -/
theorem TypeNode.becomes_exampleSites {extra : List Target → Annotation → Prop} (l : Library)
    (t : TypeNode)
    : Becomes (fun here x y => y = x.settle l here) extra (t.exampleSites "") (t.exampleSites "") := by
  have same : ∀ here x, (here, x) ∈ appliedOf (t.exampleSites "") → x = x.settle l here := by
    intro here x member
    simp only [exampleSites, Site.appliedOf_map, Site.applied, List.mem_flatMap, List.mem_map,
      Prod.mk.injEq] at member
    obtain ⟨e, _, entry, _, rfl, _⟩ := member
    rfl
  constructor
  · intro here x member
    exact ⟨x, member, same here x member⟩
  · intro here y member
    exact Or.inl ⟨y, member, same here y member⟩

/-- Early linking settles each annotation at its place and moves none. -/
theorem TypeNode.becomes_linkAnnotations {extra : List Target → Annotation → Prop} (l : Library)
    (t : TypeNode) {targets : List Target} (kind : Target.OfType targets)
    : Becomes (fun here x y => y = x.settle l here) extra (t.sites "" targets)
        ((t.linkAnnotations l).sites "" targets) := by
  induction t using induct generalizing targets with
  | step t ih =>
      have own : Becomes (fun here x y => y = x.settle l here) extra
          [.annotations "" targets t.declaration.annotations]
          [.annotations "" targets (Keyed.mapValues (·.link l) t.declaration.annotations)] := by
        apply Becomes.annotations
        intro entry _
        unfold Annotation.settle
        rw [if_neg kind.ne_example]
      have inside : Becomes (fun here x y => y = x.settle l here) extra
          (propertySites "" t.properties)
          (propertySites "" (t.properties.mapTypes (linkAnnotations l))) := by
        rw [propertySites_eq, propertySites_eq]
        apply Site.joins_becomes.map fun entry : String × Property =>
          entry.2.type.sites "" [.typeDeclaration]
        intro entry member
        exact ih entry.1 entry.2 member .declaration
      rw [linkAnnotations_eq, sites_eq_top, sites_eq_top]
      have node : Becomes (fun here x y => y = x.settle l here) extra [.typeNode t]
          [.typeNode (t.linkAnnotations l)] := .of_nil rfl rfl
      have whole := ((node.append own).append (t.becomes_exampleSites l)).append inside
      rwa [linkAnnotations_eq] at whole

-----------------------------------------------------------------------------------------
-- Declared types
-----------------------------------------------------------------------------------------

/-- The places of declared types. -/
def Types.sites (types : Types) : List Site :=
  types.flatMap fun entry => entry.2.sites "" [.typeDeclaration]

/-- What is handed on by one of the types stands in it. -/
theorem Types.mem_of_handedOn {types : Types} {name : String} {t : TypeNode}
    (member : (name, t) ∈ types) {x : List Target × Annotation}
    (h : x ∈ t.handedOn [.typeDeclaration])
    : x ∈ appliedOf types.sites := by
  rw [sites, Site.appliedOf_flatMap]
  exact List.mem_flatMap.mpr ⟨_, member, TypeNode.mem_appliedOf_sites.mpr (Or.inr h)⟩

/-- Each declared type is completed with what is known of all of them and of those of other
libraries. -/
theorem Resolver.Run.gains {extra : List Target → Annotation → Prop}
    {outer : String → Option TypeNode} {declared types : Types} {done : Traversal.Completed}
    (run : Run outer declared done types)
    (own : ∀ here x, (here, x) ∈ appliedOf (Types.sites declared) → extra here x)
    (others : ∀ name base, isQualified name = true → outer name = some base →
      ∀ here x, (here, x) ∈ base.handedOn [.typeDeclaration] → extra here x)
    : Gains extra (Types.sites declared) (Types.sites types) := by
  let related (t t' : TypeNode) : Prop :=
    Gains extra (t.sites "" [.typeDeclaration]) (t'.sites "" [.typeDeclaration])
  have whole {types : Types}
      (each : Keyed.Related related declared types)
      : Gains extra (Types.sites declared) (Types.sites types) :=
    Site.joins_becomes.forall₂ (each.imp fun _ _ => And.right)
  refine whole (run.related (R := related) (fun _ => .of_eq rfl) fun types chain t before => ?_)
  refine t.gains_fillFrom fun other _ base answer kind isDeclaration here x member => ?_
  rw [or_self_iff.mp isDeclaration] at member
  -- A base is found in another library or among what has been completed before.
  rcases find?_eq_some (outside_eq_some_iff.mp answer).2 with ⟨qualified, found⟩ | ⟨-, found⟩
  · exact others other base qualified found here x member
  · have stands := Types.mem_of_handedOn (Keyed.mem_of_get? found) member
    exact ((Site.gains_iff.mp (whole before)).2 here x stands).elim (own here x) id

namespace Library

/-- An annotation is written at a declared type, in the library itself or in one that it leads to,
and is as it is there when types are resolved. -/
def Gives (l : Library) (here : List Target) (y : Annotation) : Prop :=
  ∃ path m x, l.Reaches path m ∧ (here, x) ∈ appliedOf (Types.sites m.types)
    ∧ y = x.settle m.scope here

variable {l r m : Library} {path : List String} {here : List Target} {y : Annotation}

/-- What a library behind some namespaces has to give, the library in front of them has as well. -/
theorem Gives.of_reaches (reaches : l.Reaches path m) (h : m.Gives here y) : l.Gives here y := by
  obtain ⟨more, n, x, further, member, same⟩ := h
  exact ⟨path ++ more, n, x, reaches.trans further, member, same⟩

/-- Declared types are settled one by one and in place. -/
theorem becomes_linkedTypes {extra : List Target → Annotation → Prop} (l : Library)
    : Becomes (fun here x y => y = x.settle l here) extra (Types.sites l.types)
        (Types.sites l.linkedTypes) := by
  apply Site.joins_becomes.map fun entry : String × TypeNode => entry.2.sites "" [.typeDeclaration]
  intro entry _
  exact entry.2.becomes_linkAnnotations l .declaration

/-- What is inherited from a resolved library that a chain of namespaces leads to. -/
theorem gives_of_descend? (ok : l.resolve = .ok r) {name : String} {base : TypeNode}
    (found : r.getType? name = some base)
    (each : ∀ m m', l.Reaches (TypeName.parts name).dropLast m → m.resolve = .ok m'
      → Becomes (fun here x y => y = x.settle m.scope here) m.Gives (Types.sites m.types)
        (Types.sites m'.types))
    (member : (here, y) ∈ base.handedOn [.typeDeclaration])
    : l.Gives here y := by
  obtain ⟨m', descended, declared⟩ := getType?_eq_some_iff.mp found
  have related := descend?_resolved ok (TypeName.parts name).dropLast
  rw [descended] at related
  generalize before : l.descend? (TypeName.parts name).dropLast = m? at related
  cases related with
  | @some m _ resolved =>
      have reaches := reaches_of_descend? before
      have stands := Types.mem_of_handedOn (Keyed.mem_of_get? declared) member
      rcases (each m m' reaches resolved).backward here y stands with ⟨x, written, same⟩ | given
      · exact ⟨_, m, x, reaches, written, same⟩
      · exact given.of_reaches reaches

/-- The declared types of a resolved library have what they had, and what they inherit. -/
theorem becomes_types (ok : l.resolve = .ok r)
    : Becomes (fun here x y => y = x.settle l.scope here) l.Gives (Types.sites l.types)
        (Types.sites r.types) := by
  suffices all : ∀ path m, l.Reaches path m → ∀ m', m.resolve = .ok m'
      → Becomes (fun here x y => y = x.settle m.scope here) m.Gives (Types.sites m.types)
        (Types.sites m'.types) from
    all [] l (.self l) r ok
  clear ok
  induction l using induct with
  | step l ih =>
      intro path m reaches
      cases reaches with
      | used member inside => exact ih _ _ member _ m inside
      | self =>
          intro r ok
          have resolution := resolution_of_resolve ok
          have linked : Becomes (fun here x y => y = x.settle l.scope here) l.Gives
              (Types.sites l.types) (Types.sites (l.withUses r.uses).linkedTypes) := by
            rw [scope_eq resolution.uses]
            exact becomes_linkedTypes (l.withUses r.uses)
          apply linked.trans_gains
          apply resolution.linkedRun.gains
          · intro here y member
            rcases linked.backward here y member with ⟨x, written, same⟩ | given
            · exact ⟨[], l, x, .self l, written, same⟩
            · exact given
          · intro name base qualified found here y member
            have uses : (l.withUses r.uses).uses = r.uses := rfl
            rw [getType?_of_qualified uses qualified] at found
            apply gives_of_descend? ok found _ member
            intro m m' reaches resolved
            have leaves := dropLast_parts_ne_nil qualified
            generalize (TypeName.parts name).dropLast = path at reaches leaves
            cases reaches with
            | self => exact absurd rfl leaves
            | used first rest => exact ih _ _ first _ m rest m' resolved

/-- Whatever a base hands on is among what the library has to give: a base that is looked up is one
of the library's own types, or one of a library that it leads to. -/
theorem gives_of_getType? (ok : l.resolve = .ok r) {name : String} {base : TypeNode}
    (found : r.getType? name = some base) (member : (here, y) ∈ base.handedOn [.typeDeclaration])
    : l.Gives here y :=
  gives_of_descend? ok found (fun _ _ _ => becomes_types) member

-----------------------------------------------------------------------------------------
-- All that is declared
-----------------------------------------------------------------------------------------

/-- An annotation comes from a declared type, at a place where types inherit it: its own annotations
go to types of all sorts, those in its properties stay where they are in these. -/
def Inherits (l : Library) (here : List Target) (y : Annotation) : Prop :=
  l.Gives here y ∨ Target.OfType here ∧ l.Gives [.typeDeclaration] y

/-- What a type takes from a base that is looked up is inherited, at a place that is one of types.
-/
theorem inherits_of_getType? (ok : l.resolve = .ok r) {name : String} {base : TypeNode}
    (found : r.getType? name = some base) {kind : List Target} (ofType : Target.OfType kind)
    (member : (here, y) ∈ base.handedOn kind)
    : l.Inherits here y := by
  rcases TypeNode.mem_handedOn_cases member with same | ⟨rfl, own⟩
  · exact Or.inl (gives_of_getType? ok found same)
  · exact Or.inr ⟨ofType, gives_of_getType? ok found own⟩

/-- The types of annotations inherit from the resolved types. -/
theorem gains_annotationTypes (ok : l.resolve = .ok r)
    : Gains l.Inherits (l.annotationTypes.flatMap fun e => e.2.type.sites "" [.annotationType])
        (r.annotationTypes.flatMap fun e => e.2.type.sites "" [.annotationType]) := by
  have filled : r.annotationTypes = l.annotationTypes.map fun e =>
      (e.1, { e.2 with type := e.2.type.fillFrom r.getType? }) := by
    have same : ((l.withUses r.uses).withTypes r.types).getType? = r.getType? := by
      funext name
      exact getType?_congr (l := (l.withUses r.uses).withTypes r.types) (m := r) rfl rfl name
    conv_lhs => rw [eq_of_resolve ok]
    simp only [withResolvedTypes, Keyed.mapValues, filledAnnotationType, same]
    rfl
  rw [filled]
  apply Site.joins_becomes.map fun e : String × AnnotationType =>
    e.2.type.sites "" [.annotationType]
  intro e _
  apply e.2.type.gains_fillFrom
  intro name _ base found kind isOfType here x member
  have ofType : Target.OfType kind := by
    rcases isOfType with rfl | rfl
    · exact .annotationType
    · exact .declaration
  exact inherits_of_getType? ok found ofType member

/-- An annotation once the library around it is resolved. -/
def Resolves (l : Library) (x y : Annotation) : Prop := y = x ∨ y = x.link l.scope

/-- The places of a resolved library have what they had, and what types inherit. -/
theorem becomes_ownSites (ok : l.resolve = .ok r) (lead : String) (target : Target)
    : Becomes (fun _ => l.Resolves) l.Inherits (l.ownSites lead target) (r.ownSites lead target)
    := by
  have kept {a b : List Site} (h : Gains l.Inherits a b)
      : Becomes (fun _ => l.Resolves) l.Inherits a b :=
    h.becomes fun _ _ => Or.inl rfl
  have types : Becomes (fun _ => l.Resolves) l.Inherits (Types.sites l.types)
      (Types.sites r.types) := by
    apply (becomes_types ok).mono
    · intro here x y same
      rw [same, Annotation.settle]
      split
      · exact Or.inl rfl
      · exact Or.inr rfl
    · intro here y given
      exact Or.inl given
  have traits : (r.traits.flatMap fun e => e.2.sites "")
      = l.traits.flatMap fun e => e.2.sites "" := by
    rw [traits_of_resolve ok]
  have annotations : r.annotations = l.annotations := by
    rw [eq_of_resolve ok]
    rfl
  rw [ownSites_withLead lead target l, ownSites_withLead lead target r]
  apply Becomes.withLead
  apply (types.append (kept (.of_eq (by rw [traits])))).append (kept (gains_annotationTypes ok))
    |>.append
  exact kept (.of_eq (by rw [annotations]))

end Library

/-- When its library is resolved, the places of a document have what they had, and what types
inherit. -/
theorem Document.becomes_of_resolve {d : Document} {r : Library} (ok : d.library.resolve = .ok r)
    (target : Target)
    : d.library.Corresponds (fun path l l' => l.resolve = .ok l'
        ∧ Becomes (fun _ => l.Resolves) l.Inherits (d.sitesIn target path l)
          (sitesIn target { d with library := r } path l')) r := by
  refine (Library.corresponds_of_resolve ok).mono fun path l l' _ resolved => ⟨resolved, ?_⟩
  exact (Library.becomes_ownSites resolved _ _).append (Site.Gains.of_eq rfl |>.becomes fun _ _ =>
    Or.inl rfl)

end Raml
