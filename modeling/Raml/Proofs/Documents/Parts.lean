import Raml.Proofs.Documents.Files
import Raml.Proofs.Documents.Survey
import Raml.Proofs.Tables

/-! What comes of a library part by part, and of the libraries that it uses.

Whatever is done to a library is done to those that it uses as well: they stay under their
namespaces, and each goes on to read its files from its own directory. Where a library has been
resolved, or the examples of its types have been read, nothing has changed but types.
-/

namespace Raml

namespace Library

variable {l r : Library}

-----------------------------------------------------------------------------------------
-- Libraries in use
-----------------------------------------------------------------------------------------

/-- Libraries in use are changed where they stand, under the names that they have. -/
theorem related_of_changeUses {change : String → Library → Except Error Library} {uses uses' : Uses}
    (h : changeUses change uses = .ok uses')
    : List.Forall₂ (fun use use' => use.1 = use'.1
        ∧ UseRelated (fun m m' => change use.1 m = .ok m') use.2 use'.2) uses uses' := by
  refine (forall₂_of_mapM h).imp ?_
  rintro ⟨name, use⟩ entry changed
  obtain ⟨use', made, same⟩ := bind_eq_ok_iff.mp changed
  cases same
  refine ⟨rfl, ?_⟩
  cases use with
  | external path =>
      cases made
      exact .external path
  | loaded used =>
      obtain ⟨used', done, same⟩ := bind_eq_ok_iff.mp made
      cases same
      exact .loaded done

-----------------------------------------------------------------------------------------
-- Resolution
-----------------------------------------------------------------------------------------

/-- A resolved library differs from the one that was written in the libraries it uses and in types.
-/
theorem eq_of_resolve (h : l.resolve = .ok r)
    : r = (l.withUses r.uses).withResolvedTypes r.types := by
  rw [resolve_eq] at h
  obtain ⟨uses, -, h⟩ := bind_eq_ok_iff.mp h
  rcases (l.withUses uses).resolveTypes_cases with ⟨types, -, -, ok⟩ | ⟨e, error, -⟩
  · cases h.symm.trans ok
    rfl
  · simp [error] at h

/-- Resolving a library leaves its traits alone. -/
theorem traits_of_resolve (h : l.resolve = .ok r) : r.traits = l.traits := by
  rw [eq_of_resolve h]
  rfl

/-- Resolving a library takes no name away and adds none. -/
theorem sameNames_of_resolve (h : l.resolve = .ok r) : l.SameNames r := by
  refine ⟨by rw [traits_of_resolve h], ?_⟩
  rw [eq_of_resolve h]
  exact Keyed.keys_mapValues _ _

/-- The libraries that are used are resolved. -/
theorem uses_of_resolve (h : l.resolve = .ok r)
    : List.Forall₂ (fun use use' => use.1 = use'.1
        ∧ UseRelated (fun m m' => m.resolve = .ok m') use.2 use'.2) l.uses r.uses :=
  related_of_changeUses ((resolveUses_eq l.uses).symm.trans (resolution_of_resolve h).uses)

/-- Every library behind namespaces is resolved by itself. -/
theorem corresponds_of_resolve (h : l.resolve = .ok r)
    : l.Corresponds (fun _ m m' => m.resolve = .ok m') r :=
  corresponds_of_related (fun _ _ => uses_of_resolve) h

-----------------------------------------------------------------------------------------
-- Examples in files
-----------------------------------------------------------------------------------------

variable {source : Source} {directory : Path}

/-- A library whose declared types have been read differs in them and in the libraries it uses. -/
theorem eq_of_materialize (h : l.materialize source directory = .ok r)
    : (l.types.mapM fun (name, t) => do
          return (name, ← t.materialize (source.include (l.location.getD directory))))
          = .ok r.types
        ∧ materializeUses source (l.location.getD directory) l.uses = .ok r.uses
        ∧ r = { l with types := r.types, uses := r.uses } := by
  rw [materialize_eq] at h
  obtain ⟨types, read, h⟩ := bind_eq_ok_iff.mp h
  obtain ⟨uses, others, h⟩ := bind_eq_ok_iff.mp h
  cases h
  exact ⟨read, others, rfl⟩

/-- Reading the examples of libraries in use leaves each where it stands. -/
theorem materializeUses_related {uses uses' : Uses}
    (h : materializeUses source directory uses = .ok uses')
    : List.Forall₂ (fun use use' => use.1 = use'.1
        ∧ UseRelated (fun m m' => m.materialize source directory = .ok m') use.2 use'.2)
        uses uses' :=
  related_of_changeUses ((materializeUses_eq source directory uses).symm.trans h)

/-- The examples of every library behind namespaces are read by themselves. -/
theorem corresponds_of_materialize (h : l.materialize source directory = .ok r)
    : l.Corresponds (fun _ m m' => ∃ directory, m.materialize source directory = .ok m') r := by
  refine corresponds_of_related (S := fun m m' => ∃ d, m.materialize source d = .ok m') ?_ ⟨_, h⟩
  rintro m m' ⟨_, read⟩
  refine (materializeUses_related (eq_of_materialize read).2.1).imp fun use use' related => ?_
  exact ⟨related.1, related.2.mono fun _ _ read => ⟨_, read⟩⟩

end Library

-----------------------------------------------------------------------------------------
-- Libraries in directories
-----------------------------------------------------------------------------------------

namespace Library

variable {directory there : Path} {l l' m m' : Library} {path : List String}

/-- Namespaces lead from a library to another one, and each reads its files from a directory. -/
inductive ReachesAt : Path → Library → List String → Path → Library → Prop where
  | self (directory : Path) (l : Library) : ReachesAt directory l [] directory l
  | used {directory there : Path} {l used m : Library} {name : String} {path : List String}
      (h : (name, Use.loaded used) ∈ l.uses)
      (inside : ReachesAt (used.location.getD directory) used path there m)
      : ReachesAt directory l (name :: path) there m

/-- Directories aside, the namespaces lead where they did. -/
theorem ReachesAt.reaches (h : ReachesAt directory l path there m) : l.Reaches path m := by
  induction h with
  | self => exact .self _
  | used member _ ih => exact .used member ih

/-- Some directory goes with every library that is reached. -/
theorem exists_reachesAt (h : l.Reaches path m) (directory : Path)
    : ∃ there, ReachesAt directory l path there m := by
  induction h generalizing directory with
  | self => exact ⟨directory, .self _ _⟩
  | @used _ used _ _ _ member _ ih =>
      obtain ⟨there, inside⟩ := ih (used.location.getD directory)
      exact ⟨there, .used member inside⟩

/-- What libraries in a directory are related to stands in the same place, with the same names, and
so do the libraries that they use. -/
structure Parallel (S : Path → Library → Library → Prop) : Prop where
  location {directory : Path} {l l' : Library} (h : S directory l l') : l'.location = l.location
  traits {directory : Path} {l l' : Library} (h : S directory l l')
    : Keyed.keys l'.traits = Keyed.keys l.traits
  uses {directory : Path} {l l' : Library} (h : S directory l l')
    : Keyed.Related (UseRelated fun m m' => S (m.location.getD directory) m m') l.uses l'.uses

namespace Parallel

variable {S : Path → Library → Library → Prop} {name : String} {used used' : Library}

/-- A library in use has its counterpart, related to it in its own directory. -/
theorem exists_used (parallel : Parallel S) (h : S directory l l')
    (member : (name, Use.loaded used) ∈ l.uses)
    : ∃ used', (name, Use.loaded used') ∈ l'.uses
        ∧ S (used.location.getD directory) used used' := by
  obtain ⟨_, member, ⟨⟩ | ⟨related⟩⟩ := (parallel.uses h).forward member
  exact ⟨_, member, related⟩

/-- Every library in use afterwards is the counterpart of one that was used before. -/
theorem exists_using (parallel : Parallel S) (h : S directory l l')
    (member : (name, Use.loaded used') ∈ l'.uses)
    : ∃ used, (name, Use.loaded used) ∈ l.uses
        ∧ S (used.location.getD directory) used used' := by
  obtain ⟨_, member, ⟨⟩ | ⟨related⟩⟩ := (parallel.uses h).backward member
  exact ⟨_, member, related⟩

/-- What holds of a library and its counterpart holds of those they lead to, by induction along the
namespaces. -/
theorem forward (parallel : Parallel S) (reaches : ReachesAt directory l path there m)
    (h : S directory l l')
    : ∃ m', ReachesAt directory l' path there m' ∧ S there m m' := by
  induction reaches generalizing l' with
  | self => exact ⟨l', .self _ _, h⟩
  | used member _ ih =>
      obtain ⟨used', member', related⟩ := parallel.exists_used h member
      obtain ⟨m', inside, reached⟩ := ih related
      exact ⟨m', .used member' (parallel.location related ▸ inside), reached⟩

/-- The other direction, by induction along the namespaces as well. -/
theorem backward (parallel : Parallel S) (reaches : l'.Reaches path m') (h : S directory l l')
    : ∃ there m, ReachesAt directory l path there m ∧ S there m m' := by
  induction reaches generalizing directory l with
  | self => exact ⟨directory, l, .self _ _, h⟩
  | used member _ ih =>
      obtain ⟨used, member, related⟩ := parallel.exists_using h member
      obtain ⟨there, m, inside, reached⟩ := ih related
      exact ⟨there, m, .used member inside, reached⟩

/-- The same namespaces lead on. -/
theorem descend? (parallel : Parallel S) (path : List String) (h : S directory l l')
    : Option.Rel (fun m m' => ∃ there, S there m m') (l.descend? path) (l'.descend? path) := by
  induction path generalizing directory l l' with
  | nil => exact .some ⟨directory, h⟩
  | cons name path ih =>
      have found := (parallel.uses h).get? name
      simp only [Library.descend?, namespace?]
      revert found
      cases Keyed.get? l.uses name <;> cases Keyed.get? l'.uses name <;> intro found <;> cases found
      · exact .none
      · rename_i related
        cases related with
        | external => exact .none
        | loaded related => exact ih related

/-- The same names of traits are known. -/
theorem isSome_getTrait? (parallel : Parallel S) (h : S directory l l') (name : String)
    : (l'.getTrait? name).isSome = (l.getTrait? name).isSome := by
  have found := parallel.descend? (TypeName.parts name).dropLast h
  simp only [getTrait?, qualified?]
  revert found
  cases l.descend? (TypeName.parts name).dropLast <;>
    cases l'.descend? (TypeName.parts name).dropLast <;> intro found <;> cases found
  · rfl
  · rename_i related
    obtain ⟨there, related⟩ := related
    apply Bool.eq_iff_iff.mpr
    simp [Keyed.get?_isSome_iff, parallel.traits related]

end Parallel

end Library

-----------------------------------------------------------------------------------------
-- Passes
-----------------------------------------------------------------------------------------

namespace Pass

variable {p : Pass} {s : Scope} {target : Target} {l l' : Library}

theorem related_of_onValues {α : Type} {f : α → Except Error α} {m m' : Keyed α}
    (h : onValues f m = .ok m')
    : Keyed.Related (fun a b => f a = .ok b) m m' :=
  Keyed.related_of_mapM h

/-- A pass changes libraries in use where they stand. -/
theorem related_of_onUses {uses uses' : Uses} (h : p.onUses s uses = .ok uses')
    : Keyed.Related (Library.UseRelated fun m m' =>
        ∃ name, p.onLibrary (s.enter name m) .library m = .ok m') uses uses' := by
  rw [onUses_eq] at h
  exact (Library.related_of_changeUses h).imp fun use use' related =>
    ⟨related.1, related.2.mono fun _ _ made => ⟨use.1, made⟩⟩

/-- What a pass makes of the parts of a library. -/
structure Makes (p : Pass) (s : Scope) (l l' : Library) : Prop where
  types : Keyed.Related (fun t t' => p.type s [.typeDeclaration] t = .ok t') l.types l'.types
  traits : Keyed.Related (fun t t' => p.onTrait s t = .ok t') l.traits l'.traits
  uses : Keyed.Related (Library.UseRelated fun m m' =>
    ∃ name, p.onLibrary (s.enter name m) .library m = .ok m') l.uses l'.uses
  location : l'.location = l.location

/-- The parts of a library are changed one by one. -/
theorem makes_of_onLibrary (h : p.onLibrary s target l = .ok l') : p.Makes s l l' := by
  cases l
  obtain ⟨types, ofTypes, h⟩ := bind_eq_ok_iff.mp h
  obtain ⟨traits, ofTraits, h⟩ := bind_eq_ok_iff.mp h
  obtain ⟨_, -, h⟩ := bind_eq_ok_iff.mp h
  obtain ⟨_, -, h⟩ := bind_eq_ok_iff.mp h
  obtain ⟨uses, ofUses, h⟩ := bind_eq_ok_iff.mp h
  cases h
  exact ⟨related_of_onValues ofTypes, related_of_onValues ofTraits, related_of_onUses ofUses, rfl⟩

/-- A library in a directory, and what a pass makes of it. -/
def Takes (p : Pass) (directory : Path) (l l' : Library) : Prop :=
  ∃ s target, s.library = l ∧ s.directory = directory ∧ p.onLibrary s target l = .ok l'

/-- A pass keeps libraries in their places and traits under their names. -/
theorem parallel_takes (p : Pass) : Library.Parallel p.Takes where
  location := by
    rintro _ _ _ ⟨s, target, -, -, made⟩
    exact (makes_of_onLibrary made).location
  traits := by
    rintro _ _ _ ⟨s, target, -, -, made⟩
    exact (makes_of_onLibrary made).traits.keys
  uses := by
    rintro _ _ _ ⟨s, target, -, rfl, made⟩
    refine (makes_of_onLibrary made).uses.mono fun use use' related => related.mono ?_
    rintro m m' ⟨name, made⟩
    exact ⟨s.enter name m, .library, rfl, rfl, made⟩

/-- A whole run starts at the library of the document, in the directory of the document. -/
theorem takes_of_run {d d' : Document} (h : p.run target d = .ok d')
    : p.Takes d.directory d.library d'.library := by
  obtain ⟨library, made, h⟩ := bind_eq_ok_iff.mp h
  obtain ⟨_, -, h⟩ := bind_eq_ok_iff.mp h
  obtain ⟨_, -, h⟩ := bind_eq_ok_iff.mp h
  cases h
  exact ⟨d.scope, target, rfl, rfl, made⟩

/-- No pass moves a document. -/
theorem directory_of_run {p : Pass} {target : Target} {d d' : Document}
    (h : p.run target d = .ok d')
    : d'.directory = d.directory := by
  obtain ⟨_, -, h⟩ := bind_eq_ok_iff.mp h
  obtain ⟨_, -, h⟩ := bind_eq_ok_iff.mp h
  obtain ⟨_, -, h⟩ := bind_eq_ok_iff.mp h
  cases h
  rfl

end Pass

-----------------------------------------------------------------------------------------
-- Resolution and examples in files
-----------------------------------------------------------------------------------------

namespace Library

/-- Resolution keeps libraries in their places and traits under their names. -/
theorem parallel_resolve : Parallel fun _ l l' => l.resolve = .ok l' where
  location h := by
    rw [eq_of_resolve h]
    rfl
  traits h := by rw [traits_of_resolve h]
  uses := uses_of_resolve

/-- The examples of a library have been read from its own directory. -/
def Materializes (source : Source) (directory : Path) (l l' : Library) : Prop :=
  ∃ around, l.location.getD around = directory ∧ l.materialize source around = .ok l'

/-- Reading examples keeps libraries in their places and traits under their names. -/
theorem parallel_materializes (source : Source) : Parallel (Materializes source) where
  location := by
    rintro _ _ _ ⟨around, -, read⟩
    rw [(eq_of_materialize read).2.2]
  traits := by
    rintro _ _ _ ⟨around, -, read⟩
    rw [(eq_of_materialize read).2.2]
  uses := by
    rintro directory l l' ⟨around, rfl, read⟩
    refine (materializeUses_related (eq_of_materialize read).2.1).imp fun use use' related => ?_
    exact ⟨related.1, related.2.mono fun m m' read => ⟨_, rfl, read⟩⟩

end Library

end Raml
