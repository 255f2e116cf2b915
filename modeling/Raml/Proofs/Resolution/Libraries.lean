import Raml.Proofs.Resolution.Annotations
import Raml.Proofs.Tables
import Mathlib.Data.List.Forall2

/-! Resolution of libraries within libraries.

A library is resolved when those it uses are resolved, its declared types have been through a run,
and the types of its annotations have been filled from these. Names of types in other libraries lead
to libraries that are resolved themselves.
-/

namespace Raml

open Resolver

-----------------------------------------------------------------------------------------
-- Libraries within libraries
-----------------------------------------------------------------------------------------

namespace Library

/-- A library in use is smaller than the one that uses it. -/
theorem sizeOf_used_lt {l used : Library} {name : String} (h : (name, Use.loaded used) ∈ l.uses)
    : sizeOf used < sizeOf l := by
  obtain ⟨usage, schemas, types, traits, resourceTypes, annotationTypes, annotations,
    securitySchemes, uses, location⟩ := l
  have inside : sizeOf (name, Use.loaded used) < sizeOf uses := List.sizeOf_lt_of_mem h
  simp only [Prod.mk.sizeOf_spec, Use.loaded.sizeOf_spec, Library.mk.sizeOf_spec] at *
  omega

/-- A statement holds of every library if it goes from those that a library uses to itself. -/
theorem induct {P : Library → Prop}
    (step : ∀ l : Library, (∀ name used, (name, Use.loaded used) ∈ l.uses → P used) → P l)
    (l : Library)
    : P l :=
  step l fun _ used _ => induct step used
termination_by sizeOf l
decreasing_by exact sizeOf_used_lt ‹_›

/-- The library itself, the libraries it uses, and so on. -/
inductive Within : Library → Library → Prop where
  | self (l : Library) : Within l l
  | used {l used m : Library} {name : String} (h : (name, Use.loaded used) ∈ l.uses)
      (inside : Within m used) : Within m l

/-- The library with other libraries in place of those it uses. -/
def withUses (l : Library) (uses : Uses) : Library := { l with uses }

/-- Libraries in use are resolved first, and the declared types of the library after them. -/
theorem resolve_eq (l : Library)
    : l.resolve = resolveUses l.uses >>= fun uses => resolveTypes (l.withUses uses) := by
  cases l
  rfl

theorem resolveUses_cons (name : String) (use : Use) (uses : Uses)
    : resolveUses ((name, use) :: uses)
      = resolveUse use >>= fun use => resolveUses uses >>= fun rest => .ok ((name, use) :: rest) :=
  rfl

theorem resolveUses_eq (uses : Uses)
    : resolveUses uses = changeUses (fun _ used => used.resolve) uses := by
  induction uses with
  | nil => rfl
  | cons entry uses ih =>
      obtain ⟨name, use⟩ := entry
      rw [resolveUses_cons, ih]
      cases use with
      | external path =>
          rw [changeUses_external]
          rfl
      | loaded used =>
          rw [changeUses_loaded, resolveUse, bind_assoc]
          rfl

/-- A library as it is used, and the same one resolved. -/
inductive UseResolved : Use → Use → Prop where
  | external (path : String) : UseResolved (.external path) (.external path)
  | loaded {l r : Library} (h : l.resolve = .ok r) : UseResolved (.loaded l) (.loaded r)

/-- Either all libraries in use are resolved, each under its namespace, or one of them is not and
its error is passed on. -/
theorem resolveUses_cases (uses : Uses)
    : (∃ resolved, resolveUses uses = .ok resolved
        ∧ List.Forall₂ (fun use done => use.1 = done.1 ∧ UseResolved use.2 done.2) uses resolved)
      ∨ ∃ name used e, (name, Use.loaded used) ∈ uses ∧ used.resolve = .error e
          ∧ resolveUses uses = .error e := by
  induction uses with
  | nil => exact Or.inl ⟨[], rfl, .nil⟩
  | cons entry uses ih =>
      obtain ⟨name, use⟩ := entry
      have first : (∃ done, resolveUse use = .ok done ∧ UseResolved use done)
          ∨ ∃ used e, use = .loaded used ∧ used.resolve = .error e ∧ resolveUse use = .error e := by
        cases use with
        | external path => exact Or.inl ⟨_, rfl, .external path⟩
        | loaded used =>
            cases ok : used.resolve with
            | ok r => exact Or.inl ⟨.loaded r, by simp [resolveUse, ok], .loaded ok⟩
            | error e => exact Or.inr ⟨used, e, rfl, ok, by simp [resolveUse, ok]⟩
      rw [resolveUses_cons]
      rcases first with ⟨done, ok, resolved⟩ | ⟨used, e, rfl, failed, error⟩
      · rw [ok]
        rcases ih with ⟨rest, restOk, each⟩ | ⟨other, used, e, member, failed, error⟩
        · exact Or.inl ⟨(name, done) :: rest, by rw [restOk]; rfl, .cons ⟨rfl, resolved⟩ each⟩
        · exact Or.inr ⟨other, used, e, List.mem_cons_of_mem _ member, failed, by rw [error]; rfl⟩
      · exact Or.inr ⟨name, used, e, List.mem_cons_self, failed, by rw [error]; rfl⟩

-----------------------------------------------------------------------------------------
-- Names with points
-----------------------------------------------------------------------------------------

/-- A name without a point is a single part. -/
theorem parts_of_unqualified {name : String} (h : isQualified name = false)
    : TypeName.parts name = [name] := by
  have absent : '.' ∉ name.toList := by simpa [isQualified] using h
  rw [TypeName.parts, List.splitOn_eq_singleton absent]
  simp

/-- A name with a point has a namespace. -/
theorem dropLast_parts_ne_nil {name : String} (h : isQualified name = true)
    : (TypeName.parts name).dropLast ≠ [] := by
  have present : '.' ∈ name.toList := by simpa [isQualified] using h
  obtain ⟨front, back, split⟩ := List.append_of_mem present
  rw [TypeName.parts, split, List.splitOn_append_cons_self, List.map_append,
    List.dropLast_append_of_ne_nil (by simp [List.splitOn_ne_nil])]
  simp [List.splitOn_ne_nil]

/-- A type that a name denotes is declared where its namespaces lead. -/
theorem getType?_eq_some_iff {l : Library} {name : String} {t : TypeNode}
    : l.getType? name = some t
      ↔ ∃ m, l.descend? (TypeName.parts name).dropLast = some m
          ∧ Keyed.get? m.types ((TypeName.parts name).getLastD "") = some t := by
  simp [getType?, qualified?, Option.bind_eq_some_iff]

/-- A trait is found behind the namespaces of its name. -/
theorem getTrait?_eq_some_iff {l : Library} {name : String} {t : Trait}
    : l.getTrait? name = some t
      ↔ ∃ m, l.descend? (TypeName.parts name).dropLast = some m
          ∧ Keyed.get? m.traits ((TypeName.parts name).getLastD "") = some t := by
  simp [getTrait?, qualified?, Option.bind_eq_some_iff]

/-- A name without a point is looked up in the library itself. -/
theorem getType?_of_unqualified (l : Library) {name : String} (h : isQualified name = false)
    : l.getType? name = Keyed.get? l.types name := by
  simp [getType?, qualified?, parts_of_unqualified h, descend?]

/-- Each library in use is resolved if all of them are. -/
theorem resolve_of_mem_uses {uses resolved : Uses} (h : resolveUses uses = .ok resolved)
    {name : String} {used : Library} (member : (name, Use.loaded used) ∈ uses)
    : ∃ r, used.resolve = .ok r := by
  rcases resolveUses_cases uses with ⟨_, -, each⟩ | ⟨_, _, e, _, _, error⟩
  · obtain ⟨_, -, related⟩ := Keyed.Related.forward each member
    cases related with
    | loaded resolved => exact ⟨_, resolved⟩
  · simp [error] at h

/-- Namespaces lead to the same libraries as before, all of them resolved. -/
theorem namespace?_resolved {l r : Library} (h : resolveUses l.uses = .ok r.uses) (name : String)
    : Option.Rel (fun used done => used.resolve = .ok done) (l.namespace? name)
        (r.namespace? name) := by
  rcases resolveUses_cases l.uses with ⟨resolved, ok, each⟩ | ⟨_, _, e, _, _, error⟩
  · cases h.symm.trans ok
    have related := Keyed.Related.get? each name
    unfold namespace?
    generalize Keyed.get? l.uses name = before, Keyed.get? r.uses name = after at related
    cases related with
    | none => exact .none
    | some use =>
        cases use with
        | external => exact .none
        | loaded resolved => exact .some resolved
  · simp [error] at h

-----------------------------------------------------------------------------------------
-- The types of one library
-----------------------------------------------------------------------------------------

/-- The library with other declared types. -/
def withTypes (l : Library) (types : Types) : Library := { l with types }

/-- The declaration of an annotation, its type with what it inherits in the library. -/
def filledAnnotationType (l : Library) (a : AnnotationType) : AnnotationType :=
  { a with type := a.type.fillFrom l.getType? }

/-- The library with resolved types, which the declarations of its annotations inherit from. -/
def withResolvedTypes (l : Library) (types : Types) : Library :=
  { l with
    types
    annotationTypes := Keyed.mapValues (l.withTypes types).filledAnnotationType l.annotationTypes }

/-- Fills the type of the declaration of an annotation. -/
def fillAnnotationType (l : Library) (entry : String × AnnotationType)
    : Except Error (String × AnnotationType) :=
  entry.2.type.fill l >>= fun type => .ok (entry.1, { entry.2 with type })

/-- Annotations are linked first, declared types go through a run, and the types of annotations come
last. -/
theorem resolveTypes_eq (l : Library)
    : l.resolveTypes = Resolver.types l.getType? l.linkedTypes >>= fun types =>
        l.annotationTypes.mapM (l.withTypes types).fillAnnotationType >>= fun annotationTypes =>
          .ok { l with types, annotationTypes } :=
  rfl

/-- All entries of a list are transformed, or the error of one of them is passed on. -/
theorem mapM_cases {α β ε : Type} {f : α → Except ε β} {g : α → β} {good : α → Prop}
    {bad : ε → Prop} {list : List α}
    (each : ∀ a ∈ list, (f a = .ok (g a) ∧ good a) ∨ ∃ e, f a = .error e ∧ bad e)
    : (list.mapM f = .ok (list.map g) ∧ ∀ a ∈ list, good a)
      ∨ ∃ e, list.mapM f = .error e ∧ bad e := by
  induction list with
  | nil => exact Or.inl ⟨rfl, by simp⟩
  | cons a list ih =>
      rw [List.mapM_cons]
      rcases each a List.mem_cons_self with ⟨ok, first⟩ | ⟨e, error, isBad⟩
      · rw [ok]
        rcases ih fun b member => each b (List.mem_cons_of_mem _ member) with
          ⟨rest, all⟩ | ⟨e, error, isBad⟩
        · rw [rest]
          exact Or.inl ⟨rfl, by simpa [first] using all⟩
        · rw [error]
          exact Or.inr ⟨e, rfl, isBad⟩
      · rw [error]
        exact Or.inr ⟨e, rfl, isBad⟩

/-- A declaration of an annotation refers to a type that is not found in the library. -/
def AnnotationTypeUndefined (l : Library) (e : Error) : Prop :=
  ∃ entry ∈ l.annotationTypes, ∃ name ∈ entry.2.type.references,
    l.getType? name = none ∧ e = .typeUndefined name

/-- Filling the types of annotations fails for a reference without a declaration, and for nothing
else. -/
theorem fillAnnotationTypes_cases (l : Library)
    : (l.annotationTypes.mapM l.fillAnnotationType
          = .ok (Keyed.mapValues l.filledAnnotationType l.annotationTypes)
        ∧ ∀ entry ∈ l.annotationTypes, ∀ name ∈ entry.2.type.references,
            (l.getType? name).isSome)
      ∨ ∃ e, l.annotationTypes.mapM l.fillAnnotationType = .error e
          ∧ l.AnnotationTypeUndefined e := by
  refine mapM_cases fun entry member => ?_
  unfold fillAnnotationType
  rcases entry.2.type.fill_cases l with ⟨ok, found⟩ | ⟨name, mentioned, missing, error⟩
  · rw [ok]
    exact Or.inl ⟨rfl, found⟩
  · rw [error]
    exact Or.inr ⟨_, rfl, entry, member, name, mentioned, missing, rfl⟩

/-- Types are resolved and then declarations of annotations filled, or one of both fails. -/
theorem resolveTypes_cases (l : Library)
    : (∃ types, Run l.getType? l.linkedTypes (order l.linkedTypes) types
        ∧ (∀ entry ∈ l.annotationTypes, ∀ name ∈ entry.2.type.references,
            ((l.withTypes types).getType? name).isSome)
        ∧ l.resolveTypes = .ok (l.withResolvedTypes types))
      ∨ ∃ e, l.resolveTypes = .error e
        ∧ (Failure l.getType? l.linkedTypes e
          ∨ ∃ types, Run l.getType? l.linkedTypes (order l.linkedTypes) types
            ∧ (l.withTypes types).AnnotationTypeUndefined e) := by
  rw [resolveTypes_eq]
  rcases types_cases l.getType? l.linkedTypes with ⟨types, ok, run⟩ | ⟨e, error, failure⟩
  · rw [ok, ok_bind]
    rcases (l.withTypes types).fillAnnotationTypes_cases with ⟨filled, found⟩ | ⟨e, error, missing⟩
    · have filled' : l.annotationTypes.mapM (l.withTypes types).fillAnnotationType = _ := filled
      rw [filled']
      exact Or.inl ⟨types, run, found, rfl⟩
    · have error' : l.annotationTypes.mapM (l.withTypes types).fillAnnotationType = _ := error
      rw [error']
      exact Or.inr ⟨e, rfl, Or.inr ⟨types, run, missing⟩⟩
  · rw [error]
    exact Or.inr ⟨e, rfl, Or.inl failure⟩

-----------------------------------------------------------------------------------------
-- Resolved libraries
-----------------------------------------------------------------------------------------

/-- What resolution makes of a library: its declared types have been through a run. -/
structure Resolution (l r : Library) : Prop where
  uses : resolveUses l.uses = .ok r.uses
  run : Run (l.withUses r.uses).getType? (l.withUses r.uses).linkedTypes (order l.types) r.types
  annotations : ∀ entry ∈ l.annotationTypes, ∀ name ∈ entry.2.type.references,
    (r.getType? name).isSome

/-- Why a library is not resolved: a library that it uses is not, or its own types are not. -/
inductive Unresolved (l : Library) (e : Error) : Prop where
  | used {name : String} {used : Library} (h : (name, Use.loaded used) ∈ l.uses)
      (failed : used.resolve = .error e)
  | types {uses : Uses} (h : resolveUses l.uses = .ok uses)
      (failed : Failure (l.withUses uses).getType? (l.withUses uses).linkedTypes e)
  | annotations {uses : Uses} {types : Types} (h : resolveUses l.uses = .ok uses)
      (run : Run (l.withUses uses).getType? (l.withUses uses).linkedTypes (order l.types) types)
      (failed : ((l.withUses uses).withTypes types).AnnotationTypeUndefined e)

/-- Where names with points lead to depends on the libraries in use only. -/
theorem getType?_of_qualified {l m : Library} (uses : l.uses = m.uses) {name : String}
    (qualified : isQualified name = true)
    : l.getType? name = m.getType? name := by
  obtain ⟨first, rest, path⟩ := List.exists_cons_of_ne_nil (dropLast_parts_ne_nil qualified)
  simp only [getType?, qualified?, path, descend?, namespace?, uses]

/-- Names lead to the same types in libraries that agree in what they declare and use. -/
theorem getType?_congr {l m : Library} (types : l.types = m.types) (uses : l.uses = m.uses)
    (name : String)
    : l.getType? name = m.getType? name := by
  cases qualified : isQualified name with
  | false => rw [getType?_of_unqualified _ qualified, getType?_of_unqualified _ qualified, types]
  | true => exact getType?_of_qualified uses qualified

/-- What is found during resolution is what names lead to in the library as it is then. -/
theorem find?_getType? (l : Library) (types : Types)
    : find? l.getType? types = (l.withTypes types).getType? := by
  funext name
  cases qualified : isQualified name with
  | false =>
      rw [getType?_of_unqualified _ qualified, find?, qualified]
      rfl
  | true =>
      have uses : l.uses = (l.withTypes types).uses := rfl
      rw [find?, if_pos qualified, getType?_of_qualified uses qualified]

/-- Resolution ends in a run for each library, or in a failure of one. -/
theorem resolve_cases (l : Library)
    : (∃ r, l.resolve = .ok r ∧ Resolution l r) ∨ ∃ e, l.resolve = .error e ∧ Unresolved l e := by
  rw [resolve_eq]
  rcases resolveUses_cases l.uses with ⟨uses, ok, -⟩ | ⟨name, used, e, member, failed, error⟩
  · rw [ok, ok_bind]
    rcases (l.withUses uses).resolveTypes_cases with
      ⟨types, run, found, done⟩ | ⟨e, error, failure | ⟨types, run, missing⟩⟩
    · rw [order_linkedTypes] at run
      refine Or.inl ⟨_, done, ok, run, fun entry member name mentioned => ?_⟩
      rw [getType?_congr (l := (l.withUses uses).withResolvedTypes types)
        (m := (l.withUses uses).withTypes types) rfl rfl]
      exact found entry member name mentioned
    · exact Or.inr ⟨e, error, .types ok failure⟩
    · rw [order_linkedTypes] at run
      exact Or.inr ⟨e, error, .annotations ok run missing⟩
  · rw [error, error_bind]
    exact Or.inr ⟨e, rfl, .used member failed⟩

/-- What is resolved has been through a run. -/
theorem resolution_of_resolve {l r : Library} (h : l.resolve = .ok r) : Resolution l r := by
  rcases resolve_cases l with ⟨r', ok, resolution⟩ | ⟨e, error, -⟩
  · cases h.symm.trans ok
    exact resolution
  · simp [error] at h

/-- What fails has met a failure. -/
theorem unresolved_of_resolve {l : Library} {e : Error} (h : l.resolve = .error e)
    : Unresolved l e := by
  rcases resolve_cases l with ⟨r, ok, -⟩ | ⟨e', error, unresolved⟩
  · simp [ok] at h
  · cases h.symm.trans error
    exact unresolved

-----------------------------------------------------------------------------------------
-- Places
-----------------------------------------------------------------------------------------

/-- A declared type as a name leads to it, in the library that declares it. -/
structure Place where
  library : Library
  name : String
  type : TypeNode

/-- The declared type that a name leads to. -/
def place? (l : Library) (name : String) : Option Place := do
  let (library, name) ← l.qualified? name
  (Keyed.get? library.types name).map (⟨library, name, ·⟩)

/-- A place is found behind the namespaces of a name, as the last part of the name is declared
there. -/
theorem place?_eq_some_iff {l : Library} {name : String} {p : Place}
    : l.place? name = some p
      ↔ l.descend? (TypeName.parts name).dropLast = some p.library
          ∧ (TypeName.parts name).getLastD "" = p.name
          ∧ Keyed.get? p.library.types p.name = some p.type := by
  obtain ⟨m, last, t⟩ := p
  simp only [place?, qualified?, Option.bind_eq_bind, Option.bind_eq_some_iff,
    Option.map_eq_some_iff, Place.mk.injEq]
  constructor
  · rintro ⟨_, ⟨m, descended, rfl⟩, t, found, rfl, rfl, rfl⟩
    exact ⟨descended, rfl, found⟩
  · rintro ⟨descended, rfl, found⟩
    exact ⟨_, ⟨m, descended, rfl⟩, t, found, rfl, rfl, rfl⟩

/-- The place of a name without a point is in the library itself. -/
theorem place?_of_unqualified (l : Library) {name : String} (h : isQualified name = false)
    : l.place? name = (Keyed.get? l.types name).map (⟨l, name, ·⟩) := by
  simp [place?, qualified?, parts_of_unqualified h, descend?]

/-- The type of a name is that of its place. -/
theorem getType?_eq (l : Library) (name : String)
    : l.getType? name = (l.place? name).map Place.type := by
  unfold getType? place?
  cases l.qualified? name with
  | none => rfl
  | some found => cases h : Keyed.get? found.1.types found.2 <;> simp [h]

/-- Namespaces lead to resolved libraries in one that is resolved. -/
theorem descend?_resolved {l r : Library} (h : l.resolve = .ok r) (path : List String)
    : Option.Rel (fun used done => used.resolve = .ok done) (l.descend? path)
        (r.descend? path) := by
  induction path generalizing l r with
  | nil => exact .some h
  | cons name path ih =>
      have related := namespace?_resolved (resolution_of_resolve h).uses name
      simp only [descend?]
      generalize l.namespace? name = before, r.namespace? name = after at related
      cases related with
      | none => exact .none
      | some resolved => exact ih resolved

/-- Chains of namespaces leave a library whose own types need not be resolved. -/
theorem descend?_of_uses {l r : Library} (uses : resolveUses l.uses = .ok r.uses)
    {path : List String} (leaves : path ≠ [])
    : Option.Rel (fun used done => used.resolve = .ok done) (l.descend? path)
        (r.descend? path) := by
  obtain ⟨name, path, rfl⟩ := List.exists_cons_of_ne_nil leaves
  have related := namespace?_resolved uses name
  simp only [descend?]
  generalize l.namespace? name = before, r.namespace? name = after at related
  cases related with
  | none => exact .none
  | some resolved => exact descend?_resolved resolved path

/-- Linking annotations changes no traversal, so the run is one of the linked types. -/
theorem Resolution.linkedRun {l r : Library} (h : Resolution l r)
    : Run (l.withUses r.uses).getType? (l.withUses r.uses).linkedTypes
        (order (l.withUses r.uses).linkedTypes) r.types := by
  rw [order_linkedTypes]
  exact h.run

/-- Resolution keeps the names of declared types, and their order. -/
theorem Resolution.keys_eq {l r : Library} (h : Resolution l r)
    : Keyed.keys r.types = Keyed.keys l.types := by
  rw [h.run.keys_eq, keys_linkedTypes]
  rfl

/-- The resolved type that a place comes to hold. -/
def Place.Holds (place : Place) (t : TypeNode) : Prop :=
  ∃ r, place.library.resolve = .ok r ∧ Keyed.get? r.types place.name = some t

/-- What is declared in a library that is resolved comes to hold a type there. -/
theorem holds_of_resolve {l r : Library} (h : l.resolve = .ok r) (name : String)
    : Option.Rel Place.Holds ((Keyed.get? l.types name).map (⟨l, name, ·⟩))
        (Keyed.get? r.types name) := by
  have same : (Keyed.get? l.types name).isSome = (Keyed.get? r.types name).isSome := by
    rw [Bool.eq_iff_iff, Keyed.get?_isSome_iff, Keyed.get?_isSome_iff,
      (resolution_of_resolve h).keys_eq]
  cases found : Keyed.get? r.types name with
  | none =>
      rw [found] at same
      simp only [Option.isSome_none, Option.isSome_eq_false_iff, Option.isNone_iff_eq_none] at same
      rw [same]
      exact .none
  | some t =>
      rw [found] at same
      obtain ⟨t', declared⟩ := Option.isSome_iff_exists.mp same
      rw [declared]
      exact .some ⟨r, h, found⟩

/-- What a place comes to is found under the same name. -/
theorem place?_of_descend? {l r : Library} {name : String}
    (h : Option.Rel (fun used done => used.resolve = .ok done)
      (l.descend? (TypeName.parts name).dropLast) (r.descend? (TypeName.parts name).dropLast))
    : Option.Rel Place.Holds (l.place? name) (r.getType? name) := by
  simp only [place?, getType?, qualified?]
  generalize l.descend? (TypeName.parts name).dropLast = before,
    r.descend? (TypeName.parts name).dropLast = after at h
  cases h with
  | none => exact .none
  | some resolved =>
      have held := holds_of_resolve resolved ((TypeName.parts name).getLastD "")
      simpa using held

/-- What a name leads to in a library comes to hold what it leads to in the resolved library. -/
theorem place?_resolved {l r : Library} (h : l.resolve = .ok r) (name : String)
    : Option.Rel Place.Holds (l.place? name) (r.getType? name) :=
  place?_of_descend? (descend?_resolved h _)

/-- Each declared type that a name leads to is found when the library is resolved. -/
theorem holds_of_place? {l r : Library} (h : l.resolve = .ok r) {name : String} {p : Place}
    (found : l.place? name = some p)
    : ∃ t, r.getType? name = some t ∧ p.Holds t := by
  have related := place?_resolved h name
  rw [found] at related
  generalize r.getType? name = getType at related ⊢
  cases related with
  | some holds => exact ⟨_, rfl, holds⟩

/-- A name of another library leads to a resolved type as soon as the libraries in use are resolved.
-/
theorem place?_of_uses {l r : Library} (uses : resolveUses l.uses = .ok r.uses) {name : String}
    (qualified : isQualified name = true)
    : Option.Rel Place.Holds (l.place? name) (r.getType? name) :=
  place?_of_descend? (descend?_of_uses uses (dropLast_parts_ne_nil qualified))

/-- The same names are declared before and after. -/
theorem isSome_getType? {l r : Library} (uses : resolveUses l.uses = .ok r.uses)
    (keys : Keyed.keys r.types = Keyed.keys l.types) (name : String)
    : (r.getType? name).isSome = (l.getType? name).isSome := by
  cases qualified : isQualified name with
  | false =>
      rw [r.getType?_of_unqualified qualified, l.getType?_of_unqualified qualified,
        Bool.eq_iff_iff, Keyed.get?_isSome_iff, Keyed.get?_isSome_iff, keys]
  | true =>
      have related := place?_of_uses uses qualified
      rw [getType?_eq l]
      generalize l.place? name = place, r.getType? name = found at related ⊢
      cases related <;> rfl

end Library

end Raml
