import Raml.Proofs.Annotations.Linked

/-! Where the annotations of a document come from once types are filled in, and what they are linked
to then.

An annotation that is inherited keeps the declaration that it has in the library where it is
written. Those of examples are an exception: they are linked where the copies stand.
-/

namespace Raml

open Site (Becomes appliedOf)
open Yaml (Node)

-----------------------------------------------------------------------------------------
-- Links
-----------------------------------------------------------------------------------------

/-- An annotation, and the same one linked to the declaration that its name denotes in a library,
as the library is before or after its own types are resolved. -/
def Library.Links (l : Library) (x a : Annotation) : Prop :=
  a = x.link l.scope ∨ ∃ r, l.resolve = .ok r ∧ a = x.link r

/-- An annotation is written at a declared type, in the library itself or in one that it leads to. -/
structure Library.Writes (l : Library) (path : List String) (m : Library) (place : List Target)
    (x : Annotation) : Prop where
  reaches : l.Reaches path m
  member : (place, x) ∈ appliedOf (Types.sites m.types)

/-- An annotation in a library is the copy of one that is written at a declared type. A type's own
annotations go to types of all sorts. -/
inductive Library.Copied (l : Library) (here : List Target) (a : Annotation) : Prop where
  /-- The copy is linked where the original is written. -/
  | inherited {path : List String} {m : Library} {place : List Target} {x : Annotation}
      (writes : l.Writes path m place x)
      (goes : place = here ∨ place = [.typeDeclaration] ∧ Target.OfType here)
      (other : here ≠ [.example]) (links : m.Links x a)
  /-- The annotation of an example is linked where the copy stands. -/
  | ofExample {path : List String} {m : Library} {x : Annotation}
      (writes : l.Writes path m [.example] x) (stays : here = [.example]) (links : l.Links x a)

/-- Why an annotation cannot be linked. -/
inductive Document.Undefined (target : Target) (n : Document) (name : String) : Prop where
  /-- Where it is written, its name denotes nothing. -/
  | written {path : List String} {l : Library} {here : List Target} {x : Annotation}
      (h : n.Applies target path l here x) (named : x.name = name)
      (missing : (x.link l).declared = none)
  /-- It is that of an example, and its name denotes nothing where a copy stands. -/
  | ofExample {path more : List String} {l m : Library} {x : Annotation}
      (reaches : n.library.Reaches path l) (writes : l.Writes more m [.example] x)
      (named : x.name = name) (missing : (x.link l).declared = none)

namespace Library

variable {l r m : Library} {x y : Annotation} {here place : List Target} {path : List String}

/-- Whichever library an annotation is linked in, it is linked in one. -/
theorem Links.exists_link (h : l.Links x y) : ∃ r, y = x.link r := by
  rcases h with same | ⟨r, -, same⟩
  · exact ⟨_, same⟩
  · exact ⟨r, same⟩

/-- Linking renames nothing. -/
theorem Links.name_eq (h : l.Links x y) : y.name = x.name := by
  obtain ⟨r, rfl⟩ := h.exists_link
  exact x.name_link r

/-- Where a library is resolved, so are those that it leads to. -/
theorem resolve_of_reaches (ok : l.resolve = .ok r) (reaches : l.Reaches path m)
    : ∃ m', m.resolve = .ok m' :=
  have ⟨m', _, resolved⟩ := (corresponds_of_resolve ok).forward reaches
  ⟨m', resolved⟩

/-- What is linked early stays so, and all else is linked in the resolved library. -/
theorem Resolves.links (ok : l.resolve = .ok r) (h : l.Resolves x y) : l.Links x (y.link r) := by
  rcases h with rfl | rfl
  · exact Or.inr ⟨r, ok, rfl⟩
  · cases found : (x.link l.scope).declared with
    | none =>
        rw [x.link_of_missing found]
        exact Or.inr ⟨r, ok, rfl⟩
    | some =>
        have linked : (x.link l.scope).declared.isSome = true := by rw [found, Option.isSome_some]
        apply Or.inl
        exact Annotation.link_of_declared linked

/-- What cannot be linked early cannot be linked in the end. -/
theorem Resolves.missing_iff (ok : l.resolve = .ok r) (h : l.Resolves x y)
    : (y.link r).declared = none ↔ (x.link l).declared = none := by
  have inEnd {a : Annotation} : (a.link r).declared = none ↔ (a.link l).declared = none :=
    (SameAnnotations.of_resolve ok).declared_link_eq_none_iff
  have early : (x.link l.scope).declared = none ↔ (x.link l).declared = none :=
    (SameAnnotations.scope ok).declared_link_eq_none_iff
  rcases h with rfl | rfl
  · exact inEnd
  · constructor
    · intro missing
      rw [(x.link l.scope).link_of_missing missing] at missing
      exact early.mp missing
    · intro missing
      rw [x.link_of_missing (early.mpr missing)]
      exact inEnd.mpr missing

/-- What is inherited was written at a declared type, and has been linked early unless it is that
of an example. -/
theorem Inherits.writes (h : l.Inherits here y)
    : ∃ path m place x, l.Writes path m place x
        ∧ (place = here ∨ place = [.typeDeclaration] ∧ Target.OfType here)
        ∧ (place = [.example] ∧ here = [.example] ∧ y = x
          ∨ here ≠ [.example] ∧ y = x.link m.scope) := by
  rcases h with ⟨path, m, x, reaches, member, rfl⟩ | ⟨ofType, path, m, x, reaches, member, rfl⟩
  · refine ⟨path, m, here, x, ⟨reaches, member⟩, Or.inl rfl, ?_⟩
    unfold Annotation.settle
    split
    · rename_i ofExample
      exact Or.inl ⟨ofExample, ofExample, rfl⟩
    · rename_i other
      exact Or.inr ⟨other, rfl⟩
  · refine ⟨path, m, [.typeDeclaration], x, ⟨reaches, member⟩, Or.inr ⟨rfl, ofType⟩, Or.inr ?_⟩
    exact ⟨ofType.ne_example, rfl⟩

/-- An inherited annotation has no declaration where it is written, or is that of an example. -/
theorem Inherits.missing (ok : l.resolve = .ok r) (h : l.Inherits here y)
    (missing : (y.link r).declared = none)
    : ∃ path m place x, l.Writes path m place x ∧ x.name = y.name
        ∧ ((x.link m).declared = none ∨ place = [.example] ∧ (x.link l).declared = none) := by
  obtain ⟨path, m, place, x, writes, -, ⟨ofExample, -, rfl⟩ | ⟨-, rfl⟩⟩ := h.writes
  · refine ⟨path, m, place, y, writes, rfl, Or.inr ⟨ofExample, ?_⟩⟩
    exact (SameAnnotations.of_resolve ok).declared_link_eq_none_iff.mp missing
  · obtain ⟨m', resolved⟩ := resolve_of_reaches ok writes.reaches
    rw [(x.link m.scope).link_of_missing missing] at missing
    refine ⟨path, m, place, x, writes, (x.name_link _).symm, Or.inl ?_⟩
    exact (SameAnnotations.scope resolved).declared_link_eq_none_iff.mp missing

/-- Where all that is written has declarations, copies are linked to these. -/
theorem Inherits.copied (ok : l.resolve = .ok r) (h : l.Inherits here y)
    (defined : ∀ path m place x, l.Writes path m place x → (x.link m).declared ≠ none)
    : l.Copied here (y.link r) := by
  obtain ⟨path, m, place, x, writes, goes, ⟨rfl, rfl, rfl⟩ | ⟨other, rfl⟩⟩ := h.writes
  · exact .ofExample writes rfl (Or.inr ⟨r, ok, rfl⟩)
  · obtain ⟨m', resolved⟩ := resolve_of_reaches ok writes.reaches
    have linked : (x.link m.scope).declared.isSome = true := by
      rw [Option.isSome_iff_ne_none]
      intro missing
      apply defined path m place x writes
      exact (SameAnnotations.scope resolved).declared_link_eq_none_iff.mp missing
    rw [(x.link m.scope).link_of_declared linked]
    exact .inherited writes goes other (Or.inl rfl)

/-- Types that are not resolved are undefined or inherit from themselves. -/
theorem resolve_ne_annotationUndefined (l : Library) (name : String)
    : l.resolve ≠ .error (.annotationUndefined name) := by
  induction l using induct with
  | step l ih =>
      intro failed
      cases unresolved_of_resolve failed with
      | used member failed => exact ih _ _ member failed
      | types _ failed => cases failed
      | annotations _ _ failed =>
          obtain ⟨_, _, _, _, _, same⟩ := failed
          cases same

end Library

-----------------------------------------------------------------------------------------
-- Documents
-----------------------------------------------------------------------------------------

namespace Document

variable {target : Target} {n f : Document} {path more : List String} {l m : Library}

/-- What is written at a declared type stands in the document. -/
theorem applies_of_writes {place : List Target} {x : Annotation} (reaches : n.library.Reaches path l)
    (writes : l.Writes more m place x)
    : n.Applies target (path ++ more) m place x := by
  refine .of_own (reaches.trans writes.reaches) ?_
  simp only [Library.ownSites, Site.appliedOf_append]
  exact List.mem_append_left _ (List.mem_append_left _ (List.mem_append_left _ writes.member))

/-- A place in a document that belongs to one of its libraries. -/
def PlaceIn (target : Target) (d : Document) (l : Library) (site : Site) : Prop :=
  ∃ path, d.library.Reaches path l ∧ site ∈ d.sitesIn target path l

/-- The resolved types of a document are filled in. -/
theorem fillTypes_surveyed (target : Target) (d : Document)
    : Alike (Pass.Unlinked (d.PlaceIn target)) (Pass.fillTypes.run target d)
        (Pass.fillTypes.run target d) fun f =>
          d.library.Corresponds (d.Surveyed Pass.Fills target f) f.library :=
  Pass.fillTypes_relates.run target fun path _ reaches _ inside => ⟨path, reaches, inside⟩

/-- If types cannot be filled in for an annotation, it is one that is written and has no declaration
where it is written, or one of an example that has none where a copy stands. -/
theorem undefined_of_fill {name : String} (h : n.fill target = .error (.annotationUndefined name))
    : n.Undefined target name := by
  rcases bind_eq_error_iff.mp h with failed | ⟨r, resolved, failed⟩
  · exact absurd failed (Library.resolve_ne_annotationUndefined _ name)
  rcases (fillTypes_surveyed target { n with library := r }).error _ failed with other | missed
  · exact absurd rfl (other name)
  obtain ⟨l', here, a, ⟨site, ⟨path, reached, inside⟩, found⟩, missing, same⟩ := missed
  cases same
  obtain ⟨l, reaches, ok, becomes⟩ := (becomes_of_resolve resolved target).backward reached
  have origin : (∃ x, (here, x) ∈ appliedOf (n.sitesIn target path l) ∧ l.Resolves x a)
      ∨ l.Inherits here a := by
    rcases found with stands | ⟨_, base, kind, known, ofType, member⟩
    · exact becomes.backward here a (List.mem_flatMap.mpr ⟨site, inside, stands⟩)
    · exact Or.inr (Library.inherits_of_getType? ok known ofType member)
  rcases origin with ⟨x, member, resolves⟩ | inherits
  · have named : x.name = a.name := by
      rcases resolves with rfl | rfl
      · rfl
      · exact (x.name_link _).symm
    exact .written ⟨reaches, member⟩ named ((resolves.missing_iff ok).mp missing)
  · obtain ⟨more, m, place, x, writes, named, undefined | ⟨rfl, undefined⟩⟩ :=
      inherits.missing ok missing
    · exact .written (applies_of_writes reaches writes) named undefined
    · exact .ofExample reaches writes named undefined

/-- Once types are filled in, everything that is written has a declaration. -/
theorem defined_of_fill (h : n.fill target = .ok f) {here : List Target} {x : Annotation}
    (applies : n.Applies target path l here x)
    : (x.link l).declared ≠ none := by
  obtain ⟨r, resolved, filled⟩ := bind_eq_ok_iff.mp h
  obtain ⟨l', reached, ok, becomes⟩ :=
    (becomes_of_resolve resolved target).forward applies.reaches
  obtain ⟨f', -, -, fills⟩ :=
    ((fillTypes_surveyed target { n with library := r }).result f filled).forward reached
  obtain ⟨y, member, resolves⟩ := becomes.forward here x applies.member
  obtain ⟨a, -, rfl, linked⟩ := fills.forward here y member
  intro missing
  rw [(resolves.missing_iff ok).mpr missing] at linked
  cases linked

/-- What stands in a document once types are filled in: what is written, and copies of it. -/
theorem becomes_of_fill (h : n.fill target = .ok f)
    : n.library.Corresponds (fun path l f' => l.SameNames f'
        ∧ Becomes (fun _ x a => l.Links x a ∧ a.declared.isSome = true)
          (fun here a => l.Copied here a ∧ a.declared.isSome = true)
          (n.sitesIn target path l) (f.sitesIn target path f')) f.library := by
  obtain ⟨r, resolved, filled⟩ := bind_eq_ok_iff.mp h
  have second := (fillTypes_surveyed target { n with library := r }).result f filled
  refine ((becomes_of_resolve resolved target).trans second).mono ?_
  intro path l f' reaches ⟨l', ⟨ok, becomes⟩, names, fills⟩
  refine ⟨(Library.sameNames_of_resolve ok).trans names, ?_⟩
  have defined (more : List String) (m : Library) (place : List Target) (x : Annotation)
      (writes : l.Writes more m place x) : (x.link m).declared ≠ none :=
    defined_of_fill h (applies_of_writes reaches writes)
  constructor
  · intro here x member
    obtain ⟨y, member, resolves⟩ := becomes.forward here x member
    obtain ⟨a, member, rfl, linked⟩ := fills.forward here y member
    exact ⟨_, member, resolves.links ok, linked⟩
  · intro here a member
    have origin : ∃ y, a = y.link l' ∧ a.declared.isSome = true
        ∧ ((∃ x, (here, x) ∈ appliedOf (n.sitesIn target path l) ∧ l.Resolves x y)
          ∨ l.Inherits here y) := by
      rcases fills.backward here a member with ⟨y, stands, same, linked⟩ | ⟨y, lent, same, linked⟩
      · exact ⟨y, same, linked, becomes.backward here y stands⟩
      · obtain ⟨_, base, kind, known, ofType, member⟩ := lent
        exact ⟨y, same, linked, Or.inr (Library.inherits_of_getType? ok known ofType member)⟩
    obtain ⟨y, rfl, linked, ⟨x, written, resolves⟩ | inherits⟩ := origin
    · exact Or.inl ⟨x, written, resolves.links ok, linked⟩
    · exact Or.inr ⟨inherits.copied ok defined, linked⟩

/-- Filling in types fails for an annotation only if one is written whose name denotes nothing there,
or that is of an example and whose name denotes nothing where a copy stands. Otherwise all that is
written stays where it is, and everything is linked to what its name denotes where it is written,
but for copied annotations of examples, which are linked to what it denotes where they stand. -/
theorem fill_links (target : Target) (n : Document)
    : (∀ name, n.fill target = .error (.annotationUndefined name) → n.Undefined target name)
      ∧ ∀ f, n.fill target = .ok f
        → (∀ path l here x, n.Applies target path l here x
            → ∃ f' a, f.Applies target path f' here a ∧ l.Links x a ∧ a.declared.isSome = true)
          ∧ ∀ path f' here a, f.Applies target path f' here a
            → a.declared.isSome = true ∧ ∃ l, n.library.Reaches path l
              ∧ ((∃ x, n.Applies target path l here x ∧ l.Links x a) ∨ l.Copied here a) := by
  refine ⟨fun _ => undefined_of_fill, fun f ok => ⟨?_, ?_⟩⟩
  · intro path l here x applies
    obtain ⟨f', reaches, -, becomes⟩ := (becomes_of_fill ok).forward applies.reaches
    obtain ⟨a, member, links, linked⟩ := becomes.forward here x applies.member
    exact ⟨f', a, ⟨reaches, member⟩, links, linked⟩
  · intro path f' here a applies
    obtain ⟨l, reaches, -, becomes⟩ := (becomes_of_fill ok).backward applies.reaches
    rcases becomes.backward here a applies.member with ⟨x, written, links, linked⟩ | ⟨copied, linked⟩
    · exact ⟨linked, l, reaches, Or.inl ⟨x, ⟨reaches, written⟩, links⟩⟩
    · exact ⟨linked, l, reaches, Or.inr copied⟩

/-- A document with a type from a library, in which the example of a property has an annotation that
only the library declares. -/
def dictionary : Node :=
  .map [(.str "title", .str "Dictionary"),
    (.str "uses", .map [(.str "lib", .map [
      (.str "annotationTypes", .map [(.str "tag", .str "string")]),
      (.str "types", .map [(.str "Word", .map [(.str "properties", .map [(.str "text",
        .map [(.str "type", .str "string"),
          (.str "example", .map [(.str "value", .str "a"), (.str "(tag)", .str "x")])])])])])])]),
    (.str "types", .map [(.str "Entry", .str "lib.Word")])]

/-- The name of the annotation that types cannot be filled in for, if there is one. -/
def undefined? (target : Target) (n : Document) : Option String :=
  match n.fill target with
  | .error (.annotationUndefined name) => some name
  | _ => none

/-- If some annotation cannot be linked, types cannot be filled in, and its name is reported. -/
theorem fill_of_undefined? {name : String} (h : n.undefined? target = some name)
    : n.fill target = .error (.annotationUndefined name) := by
  unfold undefined? at h
  split at h
  · rename_i failed
    cases h
    exact failed
  · cases h

/-- Everything in the document has a declaration where it is written, and still types cannot be
filled in for an annotation. -/
theorem not_fill_links
    : ¬∀ (d₀ d n : Document) (mediaTypes : Option (List String)) (name : String), d₀.Written
        → ({} : Parser).Loads d₀ d → d.normalize .api mediaTypes = .ok n
        → n.fill .api = .error (.annotationUndefined name)
        → ∃ path l here x, n.Applies .api path l here x ∧ x.name = name
          ∧ (x.link l).declared = none := by
  intro only
  have evaluated : ∃ phases, ({} : Parser).normal? dictionary = some phases
      ∧ phases.2.2.undefined? .api = some "tag"
      ∧ ∀ x ∈ phases.2.2.applied .api, (x.2.2.link x.1).declared ≠ none := by
    have checked : (({} : Parser).normal? dictionary).any (fun phases =>
        decide (phases.2.2.undefined? .api = some "tag"
          ∧ ∀ x ∈ phases.2.2.applied .api, (x.2.2.link x.1).declared ≠ none)) = true := by
      decide +kernel
    obtain ⟨phases, normal, holds⟩ := (Option.any_eq_true _ _).mp checked
    exact ⟨phases, normal, of_decide_eq_true holds⟩
  obtain ⟨⟨d₀, d, n⟩, normal, failed, defined⟩ := evaluated
  obtain ⟨written, loads, normal⟩ := Parser.normal_of_normal? normal
  obtain ⟨path, l, here, x, applies, -, missing⟩ :=
    only d₀ d n _ _ written loads normal (fill_of_undefined? failed)
  exact defined (l, here, x) (mem_applied_iff.mpr ⟨path, applies⟩) missing

end Document

end Raml
