import Raml.Proofs.Annotations.Linked
import Raml.Proofs.Documents.Loaded
import Raml.Proofs.Documents.Passage

/-! What is sound stays sound while a document is prepared, and each annotation comes to have its key
for a name and a declaration that it is linked to.
-/

namespace Raml

open Rules

variable {R R' : Rules}

namespace Rules

/-- Of a document in which no value is left out: annotations have one. -/
def valued : Rules := pending fun key a => Annotation.isKey key = true ∧ a.value.isSome

/-- Of a document in normal form: annotations are named by their keys. -/
def named : Rules := pending fun key a => a.name = key ∧ a.value.isSome

/-- Of a document whose types have inherited: annotations are linked to their declarations. -/
def linked : Rules := pending fun key a => a.name = key ∧ a.value.isSome ∧ a.declared.isSome

end Rules

-----------------------------------------------------------------------------------------
-- Normal forms
-----------------------------------------------------------------------------------------

/-- Normal properties are sound if those that were written are. -/
theorem Pass.leads_normalizeProperties : Leads written written normalizeProperties := by
  refine leads_ofHooks (M := written) (fun _ _ => ?_) fun _ _ _ h => Yields.ok h
  exact {
    node := fun h => Yields.ok (all_type.mp h).1
    properties := fun h _ normal =>
      Properties.named_of_normalize (ofProperties_iff_named.mp h).1.1 normal
    annotations := fun _ _ h => Yields.ok h
    examples := id }

/-- The passes that change annotations only. -/
theorem Pass.leads_annotations {change : Annotations → Annotations}
    (examples : ∀ {kind value included loaded},
      R.ofExample kind value included loaded → R'.ofExample kind value included loaded)
    (each : ∀ {g}, R.All (Annotations.leaves g) → R'.All (Annotations.leaves (change g)))
    : Leads R R' (ofHooks fun _ => { annotations := fun _ g => .ok (change g) }) := by
  refine leads_ofHooks (M := R) (fun _ _ => ?_) fun _ _ _ h => Yields.ok (each h)
  exact {
    node := fun h => Yields.ok (all_type.mp h).1
    properties := fun h => Yields.ok (ofProperties_iff_named.mp h).1
    annotations := fun _ _ h => Yields.ok (each h)
    examples := examples }

/-- Changing every annotation under its key changes which rules they obey, if each one does. -/
theorem Rules.all_mapAnnotations {f : Annotation → Annotation} {g : Annotations}
    (h : R.All (Annotations.leaves g))
    (each : ∀ key a, (key, a) ∈ g → R.OfApplied key a → R'.OfApplied key (f a))
    : R'.All (Annotations.leaves (Keyed.mapValues f g)) := by
  obtain ⟨unique, all⟩ := all_annotations.mp h
  refine all_annotations.mpr ⟨by rwa [Keyed.keys_mapValues], ?_⟩
  rintro _ member
  obtain ⟨⟨key, a⟩, inside, rfl⟩ := List.mem_map.mp member
  exact each key a inside (all _ inside)

/-- Values that are left out are completed. -/
theorem Annotations.all_withValues {g : Annotations} (h : written.All (Annotations.leaves g))
    : valued.All (Annotations.leaves g.withValues) := by
  refine all_mapAnnotations (f := fun a => { a with value := some (a.value.getD .null) }) h ?_
  intro key a _ ⟨regular, isKey⟩
  refine ⟨?_, isKey, rfl⟩
  rintro _ ⟨⟩
  cases own : a.value with
  | none => exact Value.regular_null
  | some v => exact regular v own

/-- Of annotations whose keys come to be the same, the last one counts. -/
theorem Annotations.all_withoutBrackets {g : Annotations} (h : valued.All (Annotations.leaves g))
    : named.All (Annotations.leaves g.withoutBrackets) := by
  refine all_annotations.mpr ⟨Keyed.nodup_ofPairs _, fun entry member => ?_⟩
  obtain ⟨⟨key, a⟩, inside, rfl⟩ := List.mem_map.mp (Keyed.mem_of_mem_ofPairs member)
  obtain ⟨regular, -, some⟩ := (all_annotations.mp h).2 _ inside
  exact ⟨regular, rfl, some⟩

/-- Once they have values, annotations get their keys for names. -/
theorem Pass.leads_nameAnnotations : Leads valued named nameAnnotations :=
  leads_annotations id Annotations.all_withoutBrackets

/-- Annotations get values wherever they are applied. -/
theorem Pass.leads_completeAnnotations : Leads written valued completeAnnotations := by
  have hooks : Leads written valued _ := leads_annotations id Annotations.all_withValues
  refine { hooks with annotationTypes := fun h => ?_ }
  obtain ⟨unique, all⟩ := all_table.mp h
  refine all_table.mpr ⟨(AnnotationTypes.keys_withTypes _).symm ▸ unique, ?_⟩
  rintro _ member
  obtain ⟨⟨name, a⟩, inside, rfl⟩ := List.mem_map.mp member
  have own : written.All a.type.leaves := all_annotationType.mp (all _ inside)
  show written.All (if a.type.typeName.isEmpty then _ else a : AnnotationType).leaves
  split
  · exact all_annotationType.mpr (own.setName (kindFree_pending _) "string")
  · exact all _ inside

/-- A body under another media type obeys the rules it obeyed before. -/
theorem Bodies.all_underMediaTypes (names : List String) {bodies : Bodies}
    (h : R.All (Bodies.leaves bodies))
    : Yields (bodies.underMediaTypes names) fun bodies => R.All (Bodies.leaves bodies) := by
  obtain ⟨unique, all⟩ := all_bodies.mp h
  unfold underMediaTypes
  cases own : Keyed.get? bodies "" with
  | none => exact Yields.ok h
  | some body =>
      cases names with
      | nil => exact Yields.error _
      | cons first names =>
          have copied : R.All body.leaves := all _ (Keyed.mem_of_get? own)
          refine Yields.ok (all_bodies.mpr (Keyed.foldl_missing_induct
            (P := fun m => (Keyed.keys m).Nodup ∧ ∀ entry ∈ m, R.All entry.2.leaves)
            (fun _ => body) (first :: names) ⟨Keyed.nodup_erase _ unique, fun entry member =>
              all entry (Keyed.mem_of_mem_erase member)⟩ ?_))
          intro m name new ⟨unique, all⟩
          exact ⟨Keyed.nodup_append_new body unique new,
            List.forall_mem_append.mpr ⟨all, by simpa using copied⟩⟩

/-- Placing bodies keeps all rules. -/
theorem Pass.leads_applyMediaTypes (mediaTypes : Option (List String))
    : Leads R R (applyMediaTypes mediaTypes) := by
  cases mediaTypes with
  | none => exact Leads.idle
  | some names => exact { Leads.idle with bodies := Bodies.all_underMediaTypes names }

/-- In normal form every annotation is named by its key. -/
theorem Document.normalize_named {target : Target} {mediaTypes : Option (List String)}
    {d : Document} (h : written.All d.allLeaves)
    : Yields (d.normalize target mediaTypes) fun n => named.All n.allLeaves := by
  refine Yields.bind (Pass.leads_normalizeProperties.run target h) fun d h => ?_
  refine Yields.bind ((Pass.leads_applyMediaTypes mediaTypes).run target h) fun d h => ?_
  refine Yields.bind (Pass.leads_completeAnnotations.run target h) fun d h => ?_
  exact Pass.leads_nameAnnotations.run target h

-----------------------------------------------------------------------------------------
-- Inheritance
-----------------------------------------------------------------------------------------

/-- Of two sound fragments the one that is taken is sound. -/
theorem Leaf.sound_or {f g : Option Fragment} (first : (fragment f).Sound)
    (second : (fragment g).Sound)
    : (fragment (f.or g)).Sound := by
  cases f with
  | none => exact second
  | some j => exact first

namespace Rules

/-- What is inherited is sound where it came from, and rules that do not look at kinds still hold.
-/
theorem OfDeclaration.inherit (free : R.KindFree) {kind kind' : Kind} {d base : Declaration}
    (h : R.OfDeclaration kind d) (lent : R.OfDeclaration kind' base)
    : R.OfDeclaration kind' (d.inherit base) := by
  obtain ⟨unique, own⟩ := all_annotations.mp h.annotations
  obtain ⟨-, others⟩ := all_annotations.mp lent.annotations
  have annotations : R.All (Annotations.leaves (d.inherit base).annotations) := by
    refine all_annotations.mpr ⟨Keyed.nodup_addMissing _ unique, fun entry member => ?_⟩
    obtain ⟨added, same, within⟩ := Keyed.addMissing_eq d.annotations base.annotations
    simp only [Declaration.inherit, same] at member
    rcases List.mem_append.mp member with here | later
    · exact own entry here
    · exact others entry (within later)
  have kept : R.OfDeclaration kind' d := h.withKind free
  exact ⟨Leaf.sound_or h.default? lent.default?, Leaf.sound_or h.schema lent.schema, kept.single,
    kept.named, annotations, Leaf.sound_or h.facets lent.facets, Leaf.sound_or h.xml lent.xml⟩

/-- Types with a base are not written in place. -/
theorem OfType.inherit (free : R.KindFree) {t base : TypeNode} (h : R.OfType t)
    (lent : R.OfType base) (named : t.isInline = false)
    : R.OfType (t.inherit base) where
  name := h.name
  kind := lent.kind
  inPlace inPlace := nomatch named.symm.trans inPlace
  declaration := h.declaration.inherit free lent.declaration
  values := by
    show ∀ v ∈ (if t.scalar.isEmpty then _ else _ : ScalarFacets).enumeration, v.Regular
    split
    · exact lent.values
    · exact h.values
  discriminatorValue := by
    show (Leaf.fragment (if t.object.isEmpty then _ else _ : ObjectFacets).discriminatorValue).Sound
    split
    · exact lent.discriminatorValue
    · exact h.discriminatorValue
  items := by
    show (Leaf.fragment (if t.isArray && t.array.isEmpty then _ else _ : ArrayFacets).items).Sound
    split
    · exact lent.items
    · exact h.items

/-- A function is applied to the types of properties, and they are called as before. -/
theorem OfProperties.mapTypes {ps : Properties} {f : TypeNode → TypeNode} (h : R.OfProperties ps)
    (each : ∀ key p, (key, p) ∈ ps → R.All p.type.leaves → R'.All (f p.type).leaves)
    : R'.OfProperties (ps.mapTypes f) := by
  refine ⟨(Keyed.keys_mapValues _ ps).symm ▸ h.1, ?_⟩
  rintro _ member
  obtain ⟨⟨key, p⟩, inside, rfl⟩ := List.mem_map.mp member
  exact ⟨(h.2 _ inside).1, each key p inside (h.2 _ inside).2⟩

/-- Types inherit from types that obey the same rules. -/
theorem All.fillFrom (free : R.KindFree) {find : String → Option TypeNode} {t : TypeNode}
    (h : R.All t.leaves) (bases : ∀ name base, find name = some base → R.All base.leaves)
    : R.All (t.fillFrom find).leaves := by
  induction t using TypeNode.induct with
  | step t ih =>
      cases resolved : t.resolved with
      | true => rwa [TypeNode.fillFrom_of_resolved resolved]
      | false =>
          obtain ⟨own, properties⟩ := all_type.mp h
          have inside := properties.mapTypes fun key p member h => ih key p member h
          rw [TypeNode.fillFrom_eq resolved]
          cases found : t.base?.bind find with
          | none => exact all_type.mpr ⟨⟨own.name, own.kind, own.inPlace, own.declaration,
              own.values, own.discriminatorValue, own.items⟩, inside⟩
          | some base =>
              obtain ⟨name, asked, found⟩ := Option.bind_eq_some_iff.mp found
              obtain ⟨lent, others⟩ := all_type.mp (bases name base found)
              have inherited := own.inherit free lent (TypeNode.not_isInline_of_base? asked)
              rw [TypeNode.filled_some]
              cases empty : t.object.isEmpty with
              | true => exact all_type.mpr ⟨{ inherited with
                  discriminatorValue := lent.discriminatorValue }, others⟩
              | false => exact all_type.mpr ⟨{ inherited with
                  discriminatorValue := own.discriminatorValue }, inside⟩

/-- A named annotation that is linked has a declaration. -/
theorem OfApplied.link {key : String} {a : Annotation} (h : named.OfApplied key a) (l : Library)
    : named.OfApplied key (a.link l) := by
  obtain ⟨regular, same, some⟩ := h
  refine ⟨?_, (a.name_link l).trans same, ?_⟩
  · rwa [a.value_link l]
  · rwa [a.value_link l]

/-- Annotations of a type are linked at once. -/
theorem All.linkAnnotations {t : TypeNode} (h : named.All t.leaves) (l : Library)
    : named.All (t.linkAnnotations l).leaves := by
  induction t using TypeNode.induct with
  | step t ih =>
      obtain ⟨own, properties⟩ := all_type.mp h
      have inside := properties.mapTypes fun key p member h => ih key p member h
      have declared := own.declaration
      have annotations := all_mapAnnotations (f := (·.link l)) declared.annotations
        fun _ _ _ h => h.link l
      rw [TypeNode.linkAnnotations_eq]
      exact all_type.mpr ⟨{ own with declaration := { declared with annotations } }, inside⟩

end Rules

-----------------------------------------------------------------------------------------
-- Resolution
-----------------------------------------------------------------------------------------

namespace Library

/-- What obeys rules in a library does so in all libraries that are used in it. -/
theorem Within.all {l m : Library} (within : Within m l) (h : R.All l.allLeaves)
    : R.All m.allLeaves := by
  induction within with
  | self => exact h
  | used member _ ih => exact ih ((all_library.mp h).2 _ _ member)

/-- What names of types lead to. -/
theorem all_of_getType? {l : Library} (h : R.All l.allLeaves) {name : String} {t : TypeNode}
    (found : l.getType? name = some t)
    : R.All t.leaves := by
  obtain ⟨m, descended, found⟩ := getType?_eq_some_iff.mp found
  have types := (all_library.mp ((within_of_descend? descended).all h)).1.types
  exact (all_table.mp types).2 _ (Keyed.mem_of_get? found)

/-- What names of traits lead to. -/
theorem all_of_getTrait? {l : Library} (h : R.All l.allLeaves) {name : String} {t : Trait}
    (found : l.getTrait? name = some t)
    : R.All t.leaves := by
  obtain ⟨m, descended, found⟩ := getTrait?_eq_some_iff.mp found
  have traits := (all_library.mp ((within_of_descend? descended).all h)).1.traits
  exact (all_table.mp traits).2 _ (Keyed.mem_of_get? found)

end Library

/-- What is recorded obeys the rules if declared types and those of other libraries do, by induction
on the run. -/
theorem Resolver.Run.all (free : R.KindFree) {outer : String → Option TypeNode}
    {declared types : Types} {done : Traversal.Completed} (run : Run outer declared done types)
    (start : ∀ entry ∈ declared, R.All entry.2.leaves)
    (others : ∀ name base, outer name = some base → R.All base.leaves)
    : ∀ entry ∈ types, R.All entry.2.leaves := by
  refine run.forall_types (P := fun t => R.All t.leaves) start fun t find own bases =>
    own.fillFrom free ?_
  intro name base answer
  exact (bases name base answer).elim (fun found => others name base found.2) id

namespace Library

/-- Resolution brings in nothing that is not named, by induction from the libraries that are used.
-/
theorem resolveTypes_named {l : Library} (h : named.All l.allLeaves)
    : Yields l.resolveTypes fun r => named.All r.allLeaves := by
  obtain ⟨own, used⟩ := all_library.mp h
  obtain ⟨unique, declared⟩ := all_table.mp own.types
  obtain ⟨uniqueNames, annotationTypes⟩ := all_table.mp own.annotationTypes
  rcases l.resolveTypes_cases with ⟨types, run, -, ok⟩ | ⟨e, error, -⟩
  · have linked : ∀ entry ∈ l.linkedTypes, named.All entry.2.leaves := by
      rintro _ member
      obtain ⟨entry, inside, rfl⟩ := List.mem_map.mp member
      exact (declared entry inside).linkAnnotations l
    have resolved := run.all (kindFree_pending _) linked fun _ _ found => all_of_getType? h found
    have keys : Keyed.keys types = Keyed.keys l.types := run.keys_eq.trans l.keys_linkedTypes
    have ofTypes : named.All (Types.leaves types) := all_table.mpr ⟨keys ▸ unique, resolved⟩
    have around : named.All (l.withTypes types).allLeaves :=
      all_library.mpr ⟨{ own with types := ofTypes }, used⟩
    rw [ok]
    refine Yields.ok (all_library.mpr ⟨{ own with types := ofTypes, annotationTypes := ?_ }, used⟩)
    refine all_table.mpr ⟨(Keyed.keys_mapValues _ _).symm ▸ uniqueNames, ?_⟩
    rintro _ member
    obtain ⟨entry, inside, rfl⟩ := List.mem_map.mp member
    have type := all_annotationType.mp (annotationTypes entry inside)
    exact all_annotationType.mpr
      (type.fillFrom (kindFree_pending _) fun _ _ found => all_of_getType? around found)
  · rw [error]
    exact Yields.error _

/-- By induction from the libraries that are used to those that use them. -/
theorem resolve_named {l : Library} (h : named.All l.allLeaves)
    : Yields l.resolve fun r => named.All r.allLeaves := by
  induction l using induct with
  | step l ih =>
      obtain ⟨own, used⟩ := all_library.mp h
      have inside : Yields (resolveUses l.uses) fun uses => Keyed.keys uses = Keyed.keys l.uses
          ∧ ∀ name m, (name, Use.loaded m) ∈ uses → named.All m.allLeaves := by
        rw [resolveUses_eq]
        exact all_changeUses fun name m member => ih name m member (used name m member)
      rw [resolve_eq]
      refine Yields.bind inside fun uses ⟨keys, all⟩ => resolveTypes_named ?_
      exact all_library.mpr ⟨{ own with uses := keys ▸ own.uses }, all⟩

end Library

-----------------------------------------------------------------------------------------
-- What is declared elsewhere
-----------------------------------------------------------------------------------------

/-- Annotations are linked where they have declarations, and no others are left. -/
theorem Annotations.linkDeclared_linked (l : Library) {g : Annotations}
    (h : named.All (Annotations.leaves g))
    : Yields (g.linkDeclared l) fun g => linked.All (Annotations.leaves g) := by
  rcases g.linkDeclared_cases l with ⟨ok, declared⟩ | ⟨e, error, -⟩
  · rw [ok]
    refine Yields.ok (all_mapAnnotations h fun key a member obeys => ?_)
    obtain ⟨regular, same, some⟩ := obeys.link l
    exact ⟨regular, same, some, declared _ member⟩
  · rw [error]
    exact Yields.error _

/-- A type that inherits takes over what is named already. -/
theorem TypeNode.fill_named {l : Library} (around : named.All l.allLeaves) {t : TypeNode}
    (h : named.All t.leaves)
    : Yields (t.fill l) fun t => named.All t.leaves := by
  rcases t.fill_cases l with ⟨ok, -⟩ | ⟨name, -, -, error⟩
  · rw [ok]
    exact Yields.ok (h.fillFrom (kindFree_pending _) fun _ _ found =>
      Library.all_of_getType? around found)
  · rw [error]
    exact Yields.error _

/-- Once types have inherited and annotations are linked, all of them have declarations. -/
theorem Pass.leads_fillTypes : Leads named linked fillTypes := by
  have links (scope : Scope) : TypeHooks.Leads named named linked (linkHooks scope) := {
    node := fun h => Yields.ok (all_type.mp h).1
    properties := fun h => Yields.ok (ofProperties_iff_named.mp h).1
    annotations := fun _ _ h => Annotations.linkDeclared_linked scope.library h
    examples := id }
  exact {
    type := fun scope around targets t h =>
      Yields.bind (TypeNode.fill_named around h) fun t h => (links scope).visit targets h
    properties := fun scope around ps h ps' done => by
      have each (entry : String × Property) (member : entry ∈ ps) := h.2 entry member
      obtain ⟨keys, all⟩ := mapM_keyed (Q := fun key p => p.name = key ∧ linked.All p.type.leaves)
        (fun entry member => by
          refine Yields.bind (TypeNode.fill_named around (each entry member).2) fun t named => ?_
          refine Yields.bind ((links scope).visit _ named) fun t linked => ?_
          exact Yields.ok ⟨rfl, (each entry member).1, linked⟩) ps' done
      have same : Keyed.keys ps' = Keyed.keys ps := keys
      exact ⟨same ▸ h.1, all⟩
    annotations := fun scope _ _ h => Annotations.linkDeclared_linked scope.library h
    annotationTypes := fun h => h
    trait := fun _ _ _ _ => Yields.ok nofun
    uriParameters := fun _ _ h => h
    bodies := fun h => Yields.ok h }

/-- After the second phase every annotation is linked. -/
theorem Document.fill_linked {target : Target} {n : Document} (h : named.All n.allLeaves)
    : Yields (n.fill target) fun f => linked.All f.allLeaves := by
  have parts := all_document.mp h
  refine Yields.bind (Library.resolve_named parts.library) fun l sound => ?_
  exact Pass.leads_fillTypes.run target (all_document.mpr { parts with library := sound })

/-- A trait that is filled in is a copy of one in the library around it. -/
theorem Trait.fill_all {l : Library} (around : R.All l.allLeaves) (t : Trait)
    : Yields (t.fill l) fun done? => ∀ done ∈ done?, R.All done.leaves := by
  unfold Trait.fill
  split
  · exact Yields.ok nofun
  · cases found : l.getTrait? t.reference with
    | none => exact Yields.error _
    | some declared =>
        refine Yields.ok ?_
        rintro _ ⟨⟩
        have method := all_trait.mp (Library.all_of_getTrait? around found)
        exact all_trait.mpr { method with is := all_nil }

/-- Copies of traits obey what their declarations do. -/
theorem Pass.leads_fillTraits : Leads R R fillTraits :=
  { Leads.idle with trait := fun _ around t _ => t.fill_all around }

/-- Parameters that are added are plain texts, which obey all rules that do not look at kinds. -/
theorem Pass.leads_fillUriParameters (free : R.KindFree) : Leads R R fillUriParameters := by
  refine { Leads.idle with uriParameters := fun key ps h => ?_ }
  refine Keyed.foldl_missing_induct (P := R.OfProperties) Property.undeclared _ h ?_
  intro ps name new ⟨unique, all⟩
  refine ⟨Keyed.nodup_append_new _ unique new, List.forall_mem_append.mpr ⟨all, ?_⟩⟩
  rw [List.forall_mem_singleton]
  exact ⟨rfl, all_ofName free ""⟩

end Raml
