import Raml.Proofs.Documents.Loaded
import Raml.Proofs.Documents.Parts

/-! Where loaded libraries come from: each has been written somewhere, in the document or in a file
that is named on the way to it, and loading puts it in its place.
-/

namespace Raml

variable {settings : Settings} {source : Source}

/-- What a use stands for in a directory: the library that is written there, or the one in the file
that it names. -/
inductive Use.Holds (settings : Settings) (source : Source) (directory : Path)
    : Use → Library → Prop where
  | loaded (l : Library) : Holds settings source directory (.loaded l) l
  | external {file : String} {l : Library}
    (h : Library.read settings source (directory.join ⟨file⟩) = .ok l)
    : Holds settings source directory (.external file) l

/-- A use stands for one library. -/
theorem Use.Holds.unique {directory : Path} {use : Use} {l l' : Library}
    (h : use.Holds settings source directory l) (h' : use.Holds settings source directory l')
    : l' = l := by
  cases h with
  | loaded =>
      cases h'
      rfl
  | external read =>
      cases h' with
      | external read' =>
          cases read.symm.trans read'
          rfl

namespace Library

variable {directory there : Path} {l l' m m' : Library} {path : List String}

/-- Namespaces lead from a library to another one, through the files that are named on the way; each
of them names its files as seen from a directory. -/
inductive LeadsTo (settings : Settings) (source : Source)
    : Path → Library → List String → Path → Library → Prop where
  | self (directory : Path) (l : Library) : LeadsTo settings source directory l [] directory l
  | used {directory there : Path} {l used m : Library} {name : String} {use : Use}
      {path : List String} (h : (name, use) ∈ l.uses) (holds : use.Holds settings source directory used)
      (inside : LeadsTo settings source (used.location.getD directory) used path there m)
      : LeadsTo settings source directory l (name :: path) there m

/-- Namespaces lead on from where others end. -/
theorem LeadsTo.trans {elsewhere : Path} {n : Library} {more : List String}
    (h : LeadsTo settings source directory l path there m)
    (h' : LeadsTo settings source there m more elsewhere n)
    : LeadsTo settings source directory l (path ++ more) elsewhere n := by
  induction h with
  | self => exact h'
  | used member holds _ ih => exact .used member holds (ih h')

/-- Loading what a library names, in a directory, yields another one, however many files it takes.
-/
def Loads (settings : Settings) (source : Source) (directory : Path) (l l' : Library) : Prop :=
  ∃ depth, l.loadWith (Trait.load settings source) (loadFile settings source depth) directory
    = .ok l'

/-- As many files may be named in turn as loading allows for. -/
theorem loads_of_load (h : l.load settings source directory = .ok l')
    : l.Loads settings source directory l' :=
  ⟨_, h⟩

namespace Loads

/-- A use comes to be the library that it stands for, with what this names loaded in its turn. -/
def OfUse (settings : Settings) (source : Source) (directory : Path) (use use' : Use) : Prop :=
  ∃ m m', use.Holds settings source directory m
    ∧ m.Loads settings source (m.location.getD directory) m' ∧ use' = .loaded m'

/-- A library in a file is read and then loaded in the directory of that file. -/
theorem ofUse_of_loadUse {depth : Nat} {use use' : Use}
    (h : loadUse (Trait.load settings source) (loadFile settings source depth) directory use
      = .ok use')
    : OfUse settings source directory use use' := by
  cases use with
  | loaded m =>
      obtain ⟨m', loaded, same⟩ := bind_eq_ok_iff.mp h
      cases same
      exact ⟨m, m', .loaded m, ⟨depth, loaded⟩, rfl⟩
  | external file =>
      obtain ⟨m', loaded, same⟩ := bind_eq_ok_iff.mp h
      cases same
      cases depth with
      | zero => cases loaded
      | succ depth =>
          obtain ⟨m, read, loaded⟩ := bind_eq_ok_iff.mp loaded
          exact ⟨m, m', .external (mapError_eq_ok_iff.mp read), ⟨depth, loaded⟩, rfl⟩

/-- Loading changes traits and uses, each by itself. -/
structure Parts (settings : Settings) (source : Source) (directory : Path) (l l' : Library)
    : Prop where
  eq : l' = { l with traits := l'.traits, uses := l'.uses }
  traits : Keyed.Related (fun t t' => t.load settings source directory = .ok t') l.traits l'.traits
  uses : Keyed.Related (OfUse settings source directory) l.uses l'.uses

/-- Loading is done to traits and to uses apart. -/
theorem parts (h : l.Loads settings source directory l')
    : Parts settings source directory l l' := by
  obtain ⟨depth, h⟩ := h
  rw [loadWith_eq] at h
  obtain ⟨traits, ofTraits, h⟩ := bind_eq_ok_iff.mp h
  obtain ⟨uses, ofUses, same⟩ := bind_eq_ok_iff.mp h
  cases same
  rw [loadUses_eq] at ofUses
  exact {
    eq := rfl
    traits := Keyed.related_of_mapM ofTraits
    uses := (Keyed.related_of_mapM ofUses).mono fun _ _ => ofUse_of_loadUse }

/-- Loading leaves a library where it is. -/
theorem location (h : l.Loads settings source directory l') : l'.location = l.location := by
  rw [h.parts.eq]

/-- Where a library was read from does not matter once it is read from a directory. -/
theorem moved (h : l.Loads settings source directory l') (location : Option Path)
    : Loads settings source directory { l with location } { l' with location } := by
  obtain ⟨depth, h⟩ := h
  refine ⟨depth, ?_⟩
  rw [loadWith_eq] at h ⊢
  obtain ⟨traits, ofTraits, h⟩ := bind_eq_ok_iff.mp h
  obtain ⟨uses, ofUses, same⟩ := bind_eq_ok_iff.mp h
  cases same
  rw [ofTraits, ok_bind, ofUses, ok_bind]

/-- What is written behind namespaces is loaded behind the same ones, and reads its files from the
same directory. -/
theorem forward (leads : LeadsTo settings source directory l path there m)
    (h : l.Loads settings source directory l')
    : ∃ m', ReachesAt directory l' path there m' ∧ m.Loads settings source there m' := by
  induction leads generalizing l' with
  | self directory => exact ⟨l', .self directory l', h⟩
  | used member holds _ ih =>
      obtain ⟨_, member', _, used', held, loads, rfl⟩ := h.parts.uses.forward member
      cases holds.unique held
      obtain ⟨m', reaches, inside⟩ := ih loads
      exact ⟨m', .used member' (loads.location ▸ reaches), inside⟩

/-- What is loaded behind namespaces has been written behind the same ones. -/
theorem backward (reaches : l'.Reaches path m') (h : l.Loads settings source directory l')
    : ∃ there m, LeadsTo settings source directory l path there m
        ∧ m.Loads settings source there m' := by
  induction reaches generalizing directory l with
  | self => exact ⟨directory, l, .self directory l, h⟩
  | used member _ ih =>
      obtain ⟨use, written, used, _, holds, loads, ⟨⟩⟩ := h.parts.uses.backward member
      obtain ⟨there, m, leads, inside⟩ := ih loads
      exact ⟨there, m, .used written holds leads, inside⟩

/-- There is nothing else that a library could be loaded to: by induction on what is loaded. -/
theorem unique (h : l.Loads settings source directory l')
    (h' : l.Loads settings source directory m')
    : m' = l' := by
  induction l' using Library.induct generalizing directory l m' with
  | step l' ih =>
      have traits : m'.traits = l'.traits := by
        refine ((h.parts.traits.flip.trans h'.parts.traits).mono fun t t' ⟨_, one, other⟩ => ?_).eq
        cases one.symm.trans other
        rfl
      have uses : m'.uses = l'.uses := by
        refine ((h.parts.uses.flip.trans h'.parts.uses).mono_of_mem fun name _ _ member both => ?_).eq
        obtain ⟨_, ⟨_, used, holds, one, rfl⟩, _, used', holds', other, rfl⟩ := both
        cases holds.unique holds'
        rw [ih name used member one other]
      rw [h'.parts.eq, traits, uses, ← h.parts.eq]

end Loads

end Library

end Raml
