import Raml.Proofs.Documents.Parts
import Raml.Proofs.Resolution.Order

/-! Twins: libraries that differ in their traits at most, and in the places that they come from.

Nothing that is done to the other declarations looks at these. What can be found in a library can be
found in its twin, so twins stay twins, whatever is around each of them.
-/

namespace Raml

-----------------------------------------------------------------------------------------
-- Libraries without traits
-----------------------------------------------------------------------------------------

namespace Library

mutual

/-- The library without traits, and so are those that it uses. -/
def withoutTraits : Library → Library
  | ⟨usage, schemas, types, _, resourceTypes, annotationTypes, annotations, securitySchemes, uses,
      location⟩ =>
      ⟨usage, schemas, types, [], resourceTypes, annotationTypes, annotations, securitySchemes,
        usesWithoutTraits uses, location⟩

def useWithoutTraits : Use → Use
  | .external path => .external path
  | .loaded l => .loaded l.withoutTraits

def usesWithoutTraits : List (String × Use) → List (String × Use)
  | [] => []
  | (name, use) :: uses => (name, useWithoutTraits use) :: usesWithoutTraits uses

end

/-- The library without traits, as if it had been read from some other place. -/
def bare (location : Option Path) (l : Library) : Library := { l.withoutTraits with location }

/-- The libraries are the same but for their traits, wherever they were read from. -/
def Twins (l l' : Library) : Prop := l'.bare none = l.bare none

variable {l l' r r' : Library} {location : Option Path}

theorem withoutTraits_eq (l : Library)
    : l.withoutTraits = { l with traits := [], uses := usesWithoutTraits l.uses } := by
  cases l
  rfl

theorem bare_eq (location : Option Path) (l : Library)
    : l.bare location = { l with traits := [], uses := usesWithoutTraits l.uses, location } := by
  rw [bare, withoutTraits_eq]

/-- A library is bare in its own place already. -/
theorem bare_location (h : l.location = location) : l.bare location = l.withoutTraits := by
  rw [bare_eq, withoutTraits_eq, ← h]

theorem usesWithoutTraits_eq (uses : Uses)
    : usesWithoutTraits uses = Keyed.mapValues useWithoutTraits uses := by
  induction uses with
  | nil => rfl
  | cons entry uses ih =>
      rw [usesWithoutTraits, ih]
      rfl

/-- Namespaces do not depend on traits. -/
theorem namespace?_withoutTraits (l : Library) (name : String)
    : l.withoutTraits.namespace? name = (l.namespace? name).map withoutTraits := by
  rw [withoutTraits_eq, namespace?, namespace?, usesWithoutTraits_eq, Keyed.get?_mapValues]
  cases Keyed.get? l.uses name with
  | none => rfl
  | some use => cases use <;> rfl

/-- Namespaces lead to the same libraries, but for their traits. -/
theorem descend?_withoutTraits (l : Library) (path : List String)
    : l.withoutTraits.descend? path = (l.descend? path).map withoutTraits := by
  induction path generalizing l with
  | nil => rfl
  | cons name path ih =>
      rw [descend?, descend?, namespace?_withoutTraits]
      cases l.namespace? name with
      | none => rfl
      | some used => exact ih used

/-- The same types are found without traits. -/
theorem getType?_bare (l : Library) (location : Option Path)
    : (l.bare location).getType? = l.getType? := by
  funext name
  have here : (l.bare location).getType? name = l.withoutTraits.getType? name :=
    getType?_congr (l := l.bare location) (m := l.withoutTraits) rfl rfl name
  rw [here, getType?, getType?, qualified?, qualified?, descend?_withoutTraits]
  cases l.descend? (TypeName.parts name).dropLast with
  | none => rfl
  | some m => cases m; rfl

/-- The same declarations of annotations are found without traits. -/
theorem getAnnotationType?_bare (l : Library) (location : Option Path)
    : (l.bare location).getAnnotationType? = l.getAnnotationType? := by
  funext name
  have here : (l.bare location).getAnnotationType? name
      = l.withoutTraits.getAnnotationType? name := by
    simp only [getAnnotationType?, qualified?]
    cases (TypeName.parts name).dropLast <;> rfl
  rw [here, getAnnotationType?, getAnnotationType?, qualified?, qualified?, descend?_withoutTraits]
  cases l.descend? (TypeName.parts name).dropLast with
  | none => rfl
  | some m => cases m; rfl

theorem nestedUses_withoutTraits (lead : String) (uses : Uses)
    (inside : ∀ name used, (name, Use.loaded used) ∈ uses → ∀ lead,
      used.withoutTraits.nestedFrom lead
        = (used.nestedFrom lead).map fun entry => (entry.1, entry.2.withoutTraits))
    : nestedUses lead (usesWithoutTraits uses)
      = (nestedUses lead uses).map fun entry => (entry.1, entry.2.withoutTraits) := by
  induction uses with
  | nil => rfl
  | cons entry uses ih =>
      obtain ⟨name, use⟩ := entry
      have later := ih fun name used member => inside name used (.tail _ member)
      rw [usesWithoutTraits, nestedUses, nestedUses, later, List.map_append]
      cases use with
      | external path => rfl
      | loaded used =>
          rw [useWithoutTraits, nestedUse, nestedUse, inside name used (.head _), List.map_cons]

/-- By induction on what the library uses: nested libraries are the same but for their traits. -/
theorem nestedFrom_withoutTraits (l : Library) (lead : String)
    : l.withoutTraits.nestedFrom lead
      = (l.nestedFrom lead).map fun entry => (entry.1, entry.2.withoutTraits) := by
  induction l using induct generalizing lead with
  | step l ih =>
      have uses := nestedUses_withoutTraits lead l.uses ih
      cases l
      exact uses

/-- The same names of types are found without traits. -/
theorem typeNames_bare (l : Library) (location : Option Path)
    : (l.bare location).typeNames = l.typeNames := by
  have types (l : Library) : l.withoutTraits.types = l.types := by rw [withoutTraits_eq]
  have here : (l.bare location).typeNames = l.withoutTraits.typeNames := by
    rw [bare_eq, withoutTraits_eq]
    rfl
  rw [here, typeNames, typeNames, nested, nested, nestedFrom_withoutTraits, List.flatMap_map, types]
  simp only [types]

/-- Where each library that is loaded is changed alike without its traits, all of them are. -/
theorem changeUses_withoutTraits {change change' : String → Library → Except Error Library}
    {uses uses' : Uses}
    (inside : ∀ name used, (name, Use.loaded used) ∈ uses → ∀ used', change name used = .ok used'
      → change' name used.withoutTraits = .ok used'.withoutTraits)
    (h : changeUses change uses = .ok uses')
    : changeUses change' (usesWithoutTraits uses) = .ok (usesWithoutTraits uses') := by
  induction uses generalizing uses' with
  | nil =>
      cases h
      rfl
  | cons entry uses ih =>
      obtain ⟨name, use⟩ := entry
      have later {rest : Uses} (others : changeUses change uses = .ok rest) :=
        ih (fun name used member => inside name used (.tail _ member)) others
      rw [usesWithoutTraits]
      cases use with
      | external path =>
          rw [changeUses_external] at h
          obtain ⟨rest, others, same⟩ := bind_eq_ok_iff.mp h
          cases same
          rw [useWithoutTraits, changeUses_external, later others]
          rfl
      | loaded used =>
          rw [changeUses_loaded] at h
          obtain ⟨used', made, h⟩ := bind_eq_ok_iff.mp h
          obtain ⟨rest, others, same⟩ := bind_eq_ok_iff.mp h
          cases same
          rw [useWithoutTraits, changeUses_loaded, inside name used (.head _) used' made,
            later others]
          rfl

end Library

-----------------------------------------------------------------------------------------
-- Passes
-----------------------------------------------------------------------------------------

/-- What can be found from one scope can be found from the other one. -/
structure Scope.Sees (s s' : Scope) : Prop where
  directory : s'.directory = s.directory
  type : s'.library.getType? = s.library.getType?
  annotationType : s'.library.getAnnotationType? = s.library.getAnnotationType?
  typeNames : s'.library.typeNames = s.library.typeNames

/-- From the scope of a bare library the same can be found. -/
theorem Scope.sees_bare {s s' : Scope} (directory : s'.directory = s.directory)
    {location : Option Path} (library : s'.library = s.library.bare location)
    : s.Sees s' where
  directory := directory
  type := by rw [library, Library.getType?_bare]
  annotationType := by rw [library, Library.getAnnotationType?_bare]
  typeNames := by rw [library, Library.typeNames_bare]

namespace Pass

/-- Both passes do the same to what libraries declare but for traits, wherever the same can be
found. -/
structure Like (p q : Pass) : Prop where
  type {s s' : Scope} (sees : s.Sees s') (targets : List Target)
    : q.type s' targets = p.type s targets
  annotations {s s' : Scope} (sees : s.Sees s') (targets targets' : List Target)
    : q.annotations s' targets' = p.annotations s targets
  annotationTypes : q.annotationTypes = p.annotationTypes

variable {p q : Pass} {s s' : Scope}

theorem onLibrary_eq (p : Pass) (s : Scope) (target : Target) (l : Library)
    : p.onLibrary s target l
      = onValues (p.type s [.typeDeclaration]) l.types >>= fun types =>
          onValues (p.onTrait s) l.traits >>= fun traits =>
          onValues (fun a => do return { a with type := ← p.type s [.annotationType] a.type })
            (p.annotationTypes l.annotationTypes) >>= fun annotationTypes =>
          p.annotations s [target] l.annotations >>= fun annotations =>
          p.onUses s l.uses >>= fun uses =>
          .ok { l with types, traits, annotationTypes, annotations, uses } := by
  cases l
  rfl

/-- A pass leaves uses the same but for their traits if it does so with each library. -/
theorem onUses_withoutTraits {uses uses' : Uses} (directory : s'.directory = s.directory)
    (inside : ∀ name used, (name, Use.loaded used) ∈ uses → ∀ {s s' : Scope} {used' : Library},
      s.Sees s' → p.onLibrary s .library used = .ok used'
      → q.onLibrary s' .library used.withoutTraits = .ok used'.withoutTraits)
    (h : p.onUses s uses = .ok uses')
    : q.onUses s' (Library.usesWithoutTraits uses) = .ok (Library.usesWithoutTraits uses') := by
  rw [onUses_eq] at h ⊢
  refine Library.changeUses_withoutTraits (fun name used member used' made => ?_) h
  have sees : (s.enter name used).Sees (s'.enter name used.withoutTraits) := by
    refine Scope.sees_bare ?_ (Library.bare_location rfl).symm
    rw [Scope.enter, Scope.enter, directory, Library.withoutTraits_eq]
  exact inside name used member sees made

/-- What comes of a library but for its traits does not depend on these. -/
theorem onLibrary_bare (like : p.Like q) {l l' : Library} {target target' : Target}
    (sees : s.Sees s') (location : Option Path) (h : p.onLibrary s target l = .ok l')
    : q.onLibrary s' target' (l.bare location) = .ok (l'.bare location) := by
  induction l using Library.induct generalizing s s' l' target target' location with
  | step l ih =>
      rw [onLibrary_eq] at h
      obtain ⟨types, ofTypes, h⟩ := bind_eq_ok_iff.mp h
      obtain ⟨traits, -, h⟩ := bind_eq_ok_iff.mp h
      obtain ⟨annotationTypes, ofDeclared, h⟩ := bind_eq_ok_iff.mp h
      obtain ⟨annotations, applied, h⟩ := bind_eq_ok_iff.mp h
      obtain ⟨uses, ofUses, same⟩ := bind_eq_ok_iff.mp h
      cases same
      have inside : q.onUses s' (Library.usesWithoutTraits l.uses)
          = .ok (Library.usesWithoutTraits uses) := by
        refine onUses_withoutTraits sees.directory (fun name used member s s' used' sees made => ?_)
          ofUses
        have changed : q.onLibrary s' .library (used.bare used.location)
            = .ok (used'.bare used.location) := ih name used member sees used.location made
        rwa [Library.bare_location rfl, Library.bare_location (makes_of_onLibrary made).location]
          at changed
      rw [← like.type sees] at ofTypes
      rw [← like.type sees, ← like.annotationTypes] at ofDeclared
      rw [← like.annotations sees [target] [target']] at applied
      have none : onValues (q.onTrait s') [] = .ok [] := rfl
      rw [Library.bare_eq, Library.bare_eq, onLibrary_eq]
      simp only [ofTypes, none, ofDeclared, applied, inside, ok_bind]

/-- Passes that are like a third one make twins of twins. -/
theorem Takes.twins {p' : Pass} (like : p.Like q) (like' : p'.Like q) {directory : Path}
    {l l' r r' : Library} (h : p.Takes directory l r) (h' : p'.Takes directory l' r')
    (twins : l.Twins l')
    : r.Twins r' := by
  obtain ⟨s, target, rfl, rfl, made⟩ := h
  obtain ⟨s', target', rfl, here, made'⟩ := h'
  let alone : Scope := { lead := "", library := s.library.bare none, directory := s.directory }
  have sees : s.Sees alone := Scope.sees_bare rfl rfl
  have sees' : s'.Sees alone := Scope.sees_bare here.symm twins.symm
  have one : q.onLibrary alone .library (s.library.bare none) = .ok (r.bare none) :=
    onLibrary_bare like sees none made
  have other : q.onLibrary alone .library (s'.library.bare none) = .ok (r'.bare none) :=
    onLibrary_bare like' sees' none made'
  rw [twins] at other
  exact Except.ok.inj (other.symm.trans one)

end Pass

-----------------------------------------------------------------------------------------
-- Resolution and examples in files
-----------------------------------------------------------------------------------------

namespace Library

variable {l l' r r' : Library} {source : Source} {directory : Path}

/-- What becomes of the types of a library is up to them and to what can be found. -/
theorem resolveTypes_congr (types : l'.types = l.types)
    (annotationTypes : l'.annotationTypes = l.annotationTypes) (type : l'.getType? = l.getType?)
    (annotationType : l'.getAnnotationType? = l.getAnnotationType?) (h : l.resolveTypes = .ok r)
    : l'.resolveTypes = .ok { l' with types := r.types, annotationTypes := r.annotationTypes } := by
  have linked : l'.linkedTypes = l.linkedTypes := by
    rw [linkedTypes, linkedTypes, types, funext (TypeNode.linkAnnotations_congr annotationType)]
  rw [resolveTypes_eq] at h ⊢
  obtain ⟨resolved, run, h⟩ := bind_eq_ok_iff.mp h
  obtain ⟨declared, filled, same⟩ := bind_eq_ok_iff.mp h
  cases same
  have fill : (l'.withTypes resolved).fillAnnotationType
      = (l.withTypes resolved).fillAnnotationType := by
    funext entry
    simp only [fillAnnotationType, TypeNode.fill, ← find?_getType?, type]
  rw [type, linked, run, ok_bind, annotationTypes, fill, filled, ok_bind]

/-- Resolution does not look at traits. -/
theorem resolve_bare (location : Option Path) (h : l.resolve = .ok r)
    : (l.bare location).resolve = .ok (r.bare location) := by
  induction l using induct generalizing r location with
  | step l ih =>
      rw [resolve_eq] at h
      obtain ⟨uses, ofUses, h⟩ := bind_eq_ok_iff.mp h
      have inside : resolveUses (usesWithoutTraits l.uses) = .ok (usesWithoutTraits uses) := by
        rw [resolveUses_eq] at ofUses ⊢
        refine changeUses_withoutTraits (fun name used member used' resolved => ?_) ofUses
        have changed := ih name used member used.location resolved
        have kept : used'.location = used.location := by
          rw [eq_of_resolve resolved]
          rfl
        rwa [bare_location rfl, bare_location kept] at changed
      have here : (l.bare location).withUses (usesWithoutTraits uses)
          = (l.withUses uses).bare location := by
        rw [bare_eq, bare_eq]
        rfl
      have types : ((l.withUses uses).bare location).types = (l.withUses uses).types := by
        rw [bare_eq]
      have annotationTypes : ((l.withUses uses).bare location).annotationTypes
          = (l.withUses uses).annotationTypes := by
        rw [bare_eq]
      have own := Except.ok.inj (h.symm.trans (resolveTypes_congr rfl rfl rfl rfl h))
      have resolved := resolveTypes_congr types annotationTypes (getType?_bare _ location)
        (getAnnotationType?_bare _ location) h
      have parts : (l.bare location).uses = usesWithoutTraits l.uses := by rw [bare_eq]
      rw [resolve_eq, parts, inside, ok_bind, here, resolved, own, bare_eq, bare_eq]

/-- Twins are resolved alike. -/
theorem Twins.resolve (twins : l.Twins l') (h : l.resolve = .ok r) (h' : l'.resolve = .ok r')
    : r.Twins r' := by
  have one := resolve_bare none h
  have other := resolve_bare none h'
  rw [twins] at other
  exact Except.ok.inj (other.symm.trans one)

/-- Examples are read from the same directory, though the library may not say which one it is. -/
theorem materialize_bare {around : Path} (location : Option Path)
    (here : location.getD around = l.location.getD directory)
    (h : l.materialize source directory = .ok r)
    : (l.bare location).materialize source around = .ok (r.bare location) := by
  induction l using induct generalizing r location directory around with
  | step l ih =>
      obtain ⟨types, uses, eq⟩ := eq_of_materialize h
      have inside : materializeUses source (l.location.getD directory) (usesWithoutTraits l.uses)
          = .ok (usesWithoutTraits r.uses) := by
        rw [materializeUses_eq] at uses ⊢
        refine changeUses_withoutTraits (fun name used member used' read => ?_) uses
        have changed := ih name used member used.location rfl read
        have kept : used'.location = used.location := by rw [(eq_of_materialize read).2.2]
        rwa [bare_location rfl, bare_location kept] at changed
      rw [bare_eq, materialize_eq]
      simp only [here, types, inside, ok_bind]
      rw [eq, bare_eq]

/-- The examples of twins are read alike. -/
theorem Twins.materialize (twins : l.Twins l') (h : Materializes source directory l r)
    (h' : Materializes source directory l' r')
    : r.Twins r' := by
  obtain ⟨around, here, read⟩ := h
  obtain ⟨around', here', read'⟩ := h'
  have one : (l.bare none).materialize source directory = .ok (r.bare none) :=
    materialize_bare none here.symm read
  have other : (l'.bare none).materialize source directory = .ok (r'.bare none) :=
    materialize_bare none here'.symm read'
  rw [twins] at other
  exact Except.ok.inj (other.symm.trans one)

/-- Uses that are the same but for traits are of twins. -/
theorem useRelated_of_withoutTraits {use use' : Use}
    (same : useWithoutTraits use' = useWithoutTraits use)
    : UseRelated Twins use use' := by
  cases use with
  | external path =>
      cases use' with
      | external path' =>
          cases same
          exact .external path
      | loaded => cases same
  | loaded used =>
      cases use' with
      | external => cases same
      | loaded used' =>
          refine .loaded ?_
          rw [Twins, bare, bare, Use.loaded.inj same]

theorem related_of_usesWithoutTraits {uses uses' : Uses}
    (same : usesWithoutTraits uses' = usesWithoutTraits uses)
    : Keyed.Related (UseRelated Twins) uses uses' := by
  induction uses generalizing uses' with
  | nil =>
      cases uses' with
      | nil => exact .nil
      | cons => cases same
  | cons entry uses ih =>
      cases uses' with
      | nil => cases same
      | cons entry' uses' =>
          obtain ⟨name, use⟩ := entry
          obtain ⟨name', use'⟩ := entry'
          obtain ⟨first, rest⟩ := List.cons.inj same
          obtain ⟨rfl, inside⟩ := Prod.mk.inj first
          exact .cons ⟨rfl, useRelated_of_withoutTraits inside⟩ (ih rest)

/-- Twins use twins. -/
theorem Twins.uses (twins : l.Twins l') : Keyed.Related (UseRelated Twins) l.uses l'.uses := by
  rw [Twins, bare_eq, bare_eq] at twins
  exact related_of_usesWithoutTraits (Library.mk.inj twins).2.2.2.2.2.2.2.2.1

/-- The same types, declarations of annotations and annotations. -/
structure Agrees (l l' : Library) : Prop where
  types : l'.types = l.types
  annotationTypes : l'.annotationTypes = l.annotationTypes
  annotations : l'.annotations = l.annotations

/-- Twins agree, and so do all libraries that they lead to. -/
theorem Twins.agree (twins : l.Twins l') : l.Corresponds (fun _ => Agrees) l' := by
  refine (corresponds_of_related (fun _ _ => Twins.uses) twins).mono fun _ m m' _ same => ?_
  rw [Twins, bare_eq, bare_eq] at same
  obtain ⟨-, -, types, -, -, annotationTypes, annotations, -⟩ := Library.mk.inj same
  exact ⟨types, annotationTypes, annotations⟩

end Library

end Raml
