import Raml.Parse
import Raml.Proofs.Documents.Lending
import Raml.Proofs.Normalization

/-! The passes that read no files, and what they keep of what types demand.

`Document.prepare` is all of them in order. What is demanded of every type in a document as it was
loaded is demanded of every type in the document that comes out.
-/

namespace Raml

variable {M : Demands} {pos : Position}

/-- The same demands, but others of properties. -/
def Demands.withProperties (M : Demands) (ofProperties : Properties → Prop) : Demands :=
  { M with ofProperties }

-----------------------------------------------------------------------------------------
-- Normal forms
-----------------------------------------------------------------------------------------

/-- Properties with the same name are an early error. -/
theorem Properties.normalize_error {ps : Properties} {e : Error} (h : ps.normalize = .error e)
    : e.Early := by
  obtain ⟨_, rfl⟩ := exists_name_of_normalize_eq_error h
  exact ⟨nofun, nofun⟩

/-- Properties of which no key stands twice come to be named by their keys, which stand once. -/
theorem Properties.named_of_normalize {ps ps' : Properties} (unique : (Keyed.keys ps).Nodup)
    (h : ps.normalize = .ok ps')
    : ps'.Named :=
  ⟨keys_of_normalize h ▸ ((normalize_eq_ok_iff unique).mp h).1,
    fun _ _ member => name_of_normalize h member⟩

/-- What is demanded of properties need not hold before they are normalized, if it holds
afterwards. -/
theorem Pass.normalizeProperties_carries (lasting : M.Lasting) {before : Properties → Prop}
    (normal : ∀ ps ps', before ps → Properties.normalize ps = .ok ps' → M.ofProperties ps')
    : Carries Error.Early (Spot.Meets (M.withProperties before)) (Spot.Meets M)
        normalizeProperties normalizeProperties := by
  refine carries_ofHooks lasting fun scope => ?_
  refine ⟨fun pos t _ meets => ?_, fun ps holds => ?_, fun _ _ => Alike.ok trivial⟩
  · obtain ⟨examples, -, -⟩ := meets
    exact Alike.ok examples
  · exact ⟨rfl, fun ps' ok => normal ps ps' holds ok,
      fun e error => Properties.normalize_error error⟩

/-- The passes that change annotations at most. -/
theorem Pass.annotations_carries (lasting : M.Lasting)
    (change : Scope → List Target → Annotations → Annotations)
    : Carries Error.Early (Spot.Meets M) (Spot.Meets M)
        (ofHooks fun scope => { annotations := fun targets a => .ok (change scope targets a) })
        (ofHooks fun scope => { annotations := fun targets a => .ok (change scope targets a) })
    := by
  refine carries_ofHooks lasting fun scope => ?_
  refine ⟨fun pos t _ meets => ?_, fun ps meets => Alike.ok meets, fun _ _ => Alike.ok trivial⟩
  obtain ⟨examples, -, -⟩ := meets
  exact Alike.ok examples

/-- Names of annotations are nothing that lasting demands are about. -/
theorem Pass.nameAnnotations_carries (lasting : M.Lasting)
    : Carries Error.Early (Spot.Meets M) (Spot.Meets M) nameAnnotations nameAnnotations :=
  annotations_carries lasting fun _ _ a => a.withoutBrackets

/-- The name of a type is nothing that demands are about. -/
theorem TypeNode.Meets.setName {t : TypeNode} (meets : t.Meets M pos) (name : String)
    : (t.setName name).Meets M pos := by
  obtain ⟨examples, properties, inside⟩ := meets
  exact .intro examples properties inside

/-- Values of annotations are nothing that lasting demands are about. -/
theorem Pass.completeAnnotations_carries (lasting : M.Lasting)
    : Carries Error.Early (Spot.Meets M) (Spot.Meets M) completeAnnotations
        completeAnnotations := by
  have hooks := annotations_carries lasting fun _ _ a => a.withValues
  refine { hooks with annotationTypes := fun pos types h => ⟨rfl, ?_⟩ }
  intro entry member
  obtain ⟨⟨name, a⟩, inside, rfl⟩ := List.mem_map.mp member
  have meets : a.type.Meets M pos := h _ inside
  show TypeNode.Meets M pos (if a.type.typeName.isEmpty then _ else a : AnnotationType).type
  split
  · exact meets.setName "string"
  · exact meets

/-- Bodies are copied, and nothing is changed in them. -/
theorem Bodies.underMediaTypes_alike (names : List String) {bodies : Bodies} {P : TypeNode → Prop}
    (h : ∀ entry ∈ bodies, P entry.2)
    : Alike Error.Early (Bodies.underMediaTypes names bodies) (Bodies.underMediaTypes names bodies)
        fun after => ∀ entry ∈ after, P entry.2 := by
  unfold underMediaTypes
  cases own : Keyed.get? bodies "" with
  | none => exact Alike.ok h
  | some body =>
      cases names with
      | nil => exact Alike.fail ⟨nofun, nofun⟩
      | cons first names =>
          refine Alike.ok ?_
          have copied : P body := h _ (Keyed.mem_of_get? own)
          refine Keyed.foldl_missing_induct (P := fun m => ∀ entry ∈ m, P entry.2) (fun _ => body)
            (first :: names) (fun entry member => h entry (Keyed.mem_of_mem_erase member)) ?_
          intro m name _ all
          exact List.forall_mem_append.mpr ⟨all, by simpa using copied⟩

/-- Under another media type a body meets whatever it met. -/
theorem Pass.applyMediaTypes_carries (mediaTypes : Option (List String)) (P : Spot → Prop)
    : Carries Error.Early P P (applyMediaTypes mediaTypes) (applyMediaTypes mediaTypes) := by
  cases mediaTypes with
  | none => exact Carries.idle
  | some names =>
      refine { Carries.idle with bodies := fun pos bodies h => ?_ }
      simp only [Bodies.parts, List.forall_mem_map] at h ⊢
      exact Bodies.underMediaTypes_alike (P := fun t => P ⟨pos, .type t⟩) names h

-----------------------------------------------------------------------------------------
-- What is declared elsewhere
-----------------------------------------------------------------------------------------

/-- An annotation that is not declared is an early error. -/
theorem Annotations.linkDeclared_alike (l : Library) (annotations : Annotations)
    : Alike Error.Early (annotations.linkDeclared l) (annotations.linkDeclared l)
        fun _ => True := by
  refine (Alike.mapM (Q := fun _ => True) fun entry _ => ?_).mono fun _ _ => trivial
  obtain ⟨name, a⟩ := entry
  have linked : Alike Error.Early (a.linkDeclared l) (a.linkDeclared l) fun _ => True := by
    unfold Annotation.linkDeclared
    by_cases found : (a.link l).declared.isSome = true
    · simp only [found, if_true]
      exact Alike.ok trivial
    · simp only [found]
      exact Alike.fail ⟨nofun, nofun⟩
  exact linked.bind fun _ _ => Alike.ok trivial

/-- Where each property gets another type, the list has other types. -/
theorem Properties.mapM_alike {f : String × Property → Except Error (String × Property)}
    {P : TypeNode → Prop} {ps : Properties}
    (each : ∀ key p, (key, p) ∈ ps → Alike Error.Early (f (key, p)) (f (key, p)) fun entry =>
      ∃ t, entry = (key, { p with type := t }) ∧ P t)
    : Alike Error.Early (ps.mapM f) (ps.mapM f) fun ps' =>
        ∃ types, ps' = ps.withTypes types ∧ ∀ t ∈ types, P t := by
  induction ps with
  | nil => exact Alike.ok ⟨[], rfl, by simp⟩
  | cons entry ps ih =>
      obtain ⟨key, p⟩ := entry
      rw [List.mapM_cons]
      have later := ih fun key p member => each key p (List.mem_cons_of_mem _ member)
      refine (each key p List.mem_cons_self).bind fun _ first => later.bind fun _ rest => ?_
      obtain ⟨t, rfl, holds⟩ := first
      obtain ⟨types, rfl, all⟩ := rest
      exact Alike.ok ⟨t :: types, rfl, List.forall_mem_cons.mpr ⟨holds, all⟩⟩

/-- A type that inherits meets the demands if it does by itself and its base does. -/
theorem Pass.fillTypes_carries (lasting : M.Lasting)
    : Carries Error.Early (Spot.Meets M) (Spot.Meets M) fillTypes fillTypes := by
  have links (scope : Scope)
      : TypeHooks.Carries Error.Early M M (fun _ => True) (linkHooks scope) (linkHooks scope) := by
    refine ⟨fun pos t _ meets => ?_, fun ps meets => Alike.ok meets, fun _ annotations =>
      annotations.linkDeclared_alike scope.library⟩
    obtain ⟨examples, -, -⟩ := meets
    exact Alike.ok examples
  exact { Carries.idle with
    type := fun scope pos targets t around meets =>
      (TypeNode.fill_alike lasting around.library meets).bind fun t meets =>
        (links scope).visit lasting (fun _ _ => trivial) targets trivial meets
    properties := fun scope pos ps around meets => by
      refine Alike.mono (Properties.mapM_alike (P := TypeNode.Meets M pos.inner)
        fun key p member => ?_) ?_
      · refine (TypeNode.fill_alike lasting (around.inRole _).library (meets.2 key p member)).bind
          fun t meets => ?_
        exact ((links scope).visit lasting (fun _ _ => trivial) _ trivial meets).bind
          fun t meets => Alike.ok ⟨t, rfl, meets⟩
      · rintro _ ⟨types, rfl, all⟩
        exact ⟨lasting.types types meets.1, fun key p member =>
          all p.type (Properties.mem_withTypes member)⟩
    annotations := fun scope _ annotations => annotations.linkDeclared_alike scope.library }

/-- What meets demands at one position meets them at another one that reaches less far. -/
theorem Part.Meets.nearer (lasting : M.Lasting) {further : Position} {part : Part}
    (meets : part.Meets M further) (within : pos.reach ⊆ further.reach)
    (inside : pos.inner.reach ⊆ further.inner.reach)
    : part.Meets M pos := by
  cases part with
  | type t => exact TypeNode.Meets.nearer lasting meets within inside
  | properties ps =>
      refine ⟨meets.1, fun key p member => (meets.2 key p member).nearer lasting inside ?_⟩
      rwa [Position.inner_inner, Position.inner_inner]

/-- Declared traits come to stand where they are used, without the traits that they use. -/
theorem Trait.fill_alike (lasting : M.Lasting) {l : Library}
    (h : ∀ spot ∈ l.spots pos, spot.Meets M) (t : Trait)
    : Alike Error.Early (t.fill l) (t.fill l) fun done? =>
        ∀ done, done? = some done → ∀ part ∈ done.parts, part.Meets M pos := by
  unfold Trait.fill
  split
  · exact Alike.ok nofun
  · cases found : l.getTrait? t.reference with
    | none => exact Alike.fail ⟨nofun, nofun⟩
    | some declared =>
        refine Alike.ok ?_
        rintro _ ⟨⟩
        obtain ⟨within, spots, chain⟩ := l.spots_of_getTrait? h found
        have near : ∀ part ∈ declared.parts, part.Meets M pos := fun part member =>
          (spots part member).nearer lasting (List.Subset.trans pos.reach_subset_chain chain)
            (List.Subset.trans pos.inner.reach_subset_chain chain)
        obtain ⟨_, ⟨_, _, _, _, _, _, _, _, _, _, _, _⟩, _, _, _, _, _⟩ := declared
        simp only [Trait.parts, Method.parts, traitParts, List.cons_append, List.forall_mem_cons,
          List.forall_mem_append, List.nil_append] at near ⊢
        exact ⟨near.1, near.2.1, near.2.2.1.2, near.2.2.2⟩

/-- A trait that is filled in is a copy of one that is shared, and demands reach as far. -/
theorem Pass.fillTraits_carries (lasting : M.Lasting)
    : Carries Error.Early (Spot.Meets M) (Spot.Meets M) fillTraits fillTraits :=
  { Carries.idle with trait := fun _ _ t around _ => t.fill_alike lasting around.library }

/-- Parameters are added under new names, which demands of properties allow for. -/
theorem Pass.fillUriParameters_carries (lasting : M.Lasting)
    : Carries Error.Early (Spot.Meets M) (Spot.Meets M) fillUriParameters fillUriParameters := by
  refine { Carries.idle with uriParameters := fun key pos ps h => ⟨rfl, ?_⟩ }
  refine Keyed.foldl_missing_induct (P := fun ps => (Part.properties ps).Meets M pos)
    Property.undeclared _ h fun ps name new h => ?_
  refine ⟨lasting.more h.1 new rfl, fun key p member => ?_⟩
  rcases List.mem_append.mp member with before | last
  · exact h.2 key p before
  · cases List.mem_singleton.mp last
    exact .intro nofun lasting.nil nofun

-----------------------------------------------------------------------------------------
-- All of them
-----------------------------------------------------------------------------------------

/-- What is done to a document whose libraries are loaded, before the examples in files are read. -/
def Document.prepare (target : Target) (mediaTypes : Option (List String)) (d : Document)
    : Except Error Document := do
  let d ← Pass.normalizeProperties.run target d
  let d ← (Pass.applyMediaTypes mediaTypes).run target d
  let d ← Pass.completeAnnotations.run target d
  let d ← Pass.nameAnnotations.run target d
  let d := { d with library := ← d.library.resolve }
  let d ← Pass.fillTypes.run target d
  let d ← Pass.fillTraits.run target d
  Pass.fillUriParameters.run target d

namespace Document

variable {d : Document}

/-- Directories stay where they are, and demands are met at every spot. -/
def Keeps (M : Demands) (d d' : Document) : Prop :=
  d'.directory = d.directory ∧ d'.library.location = d.library.location
    ∧ ∀ spot ∈ d'.spots, spot.Meets M

/-- What two stages keep in turn is kept by both together. -/
theorem Keeps.trans {M N : Demands} {d₁ d₂ : Document} (h : d.Keeps N d₁) (h' : d₁.Keeps M d₂)
    : d.Keeps M d₂ :=
  ⟨h'.1.trans h.1, h'.2.1.trans h.2.1, h'.2.2⟩

/-- Resolution keeps demands that last, and it fails for early errors only. -/
theorem resolve_alike (lasting : M.Lasting) (h : ∀ spot ∈ d.spots, spot.Meets M)
    : Alike Error.Early (d.library.resolve) (d.library.resolve) fun l =>
        d.Keeps M { d with library := l } := by
  obtain ⟨library, resources, parameters⟩ := forall_spots_iff.mp h
  refine (d.library.resolve_alike lasting library).mono fun l ⟨location, spots⟩ => ?_
  exact ⟨rfl, location, forall_spots_iff.mpr ⟨spots, resources, parameters⟩⟩

/-- Whatever is demanded of normal properties is met from the first pass on. -/
theorem prepare_alike (lasting : M.Lasting) {before : Properties → Prop}
    (normal : ∀ ps ps', before ps → Properties.normalize ps = .ok ps' → M.ofProperties ps')
    (target : Target) (mediaTypes : Option (List String)) {d : Document}
    (h : ∀ spot ∈ d.spots, spot.Meets (M.withProperties before))
    : Alike Error.Early (d.prepare target mediaTypes) (d.prepare target mediaTypes)
        (d.Keeps M) := by
  unfold prepare
  refine ((Pass.normalizeProperties_carries lasting normal).run target h).bind fun d₁ h₁ => ?_
  refine ((Pass.applyMediaTypes_carries mediaTypes _).run target h₁.2.2).bind fun d₂ h₂ => ?_
  refine ((Pass.completeAnnotations_carries lasting).run target h₂.2.2).bind fun d₃ h₃ => ?_
  refine ((Pass.nameAnnotations_carries lasting).run target h₃.2.2).bind fun d₄ h₄ => ?_
  refine (resolve_alike lasting h₄.2.2).bind fun l h₅ => ?_
  refine ((Pass.fillTypes_carries lasting).run target h₅.2.2).bind fun d₆ h₆ => ?_
  refine ((Pass.fillTraits_carries lasting).run target h₆.2.2).bind fun d₇ h₇ => ?_
  refine ((Pass.fillUriParameters_carries lasting).run target h₇.2.2).mono fun d₈ h₈ => ?_
  have before : d.Keeps M { d₄ with library := l } :=
    ((Keeps.trans h₁ h₂).trans h₃).trans h₄ |>.trans h₅
  exact ((before.trans h₆).trans h₇).trans h₈

end Document

end Raml
