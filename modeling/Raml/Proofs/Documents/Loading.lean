import Raml.Proofs.Decoding
import Raml.Proofs.Documents.Namespaces
import Raml.Proofs.Documents.Phases

/-! What holds of libraries as they are written, wherever they come from: a document may hold them
itself, or name the files that they are read from.
-/

namespace Raml

open Yaml (Node)

/-- The property holds of a library by itself, and of all those that it leads to. -/
def Library.Throughout (P : Library → Prop) (l : Library) : Prop :=
  ∀ path m, l.Reaches path m → P m

variable {P : Library → Prop} {T : Trait → Prop}

namespace Library.Throughout

variable {l m : Library} {name : String}

/-- What holds of a library by itself and throughout those that it uses holds throughout. -/
theorem of_uses (own : P l)
    (uses : ∀ name used, (name, Use.loaded used) ∈ l.uses → used.Throughout P)
    : l.Throughout P := by
  intro path m reaches
  cases reaches with
  | self => exact own
  | used member inside => exact uses _ _ member _ m inside

theorem own (h : l.Throughout P) : P l := h [] l (.self l)

theorem used (h : l.Throughout P) (member : (name, Use.loaded m) ∈ l.uses) : m.Throughout P :=
  fun path m reaches => h (name :: path) m (.used member reaches)

end Library.Throughout

-----------------------------------------------------------------------------------------
-- Decoding
-----------------------------------------------------------------------------------------

namespace Decode

variable {node : Node}

/-- The property holds of what fields declare, whatever they use. -/
abbrev Declares (P : Library → Prop) : Prop :=
  ∀ {node : Node} (f : Fields node), Yields (libraryFields node f) P

/-- A library that is used by its path has yet to be decoded. -/
def ThroughoutUse (P : Library → Prop) (use : Use) : Prop := ∀ l, use = .loaded l → l.Throughout P

/-- The libraries that fields use are decoded from nodes further in. -/
theorem uses_of_libraryFields (f : Fields node)
    (inside : ∀ inner : Inside node, ∀ path, Yields (uses inner.1 path) (Table (ThroughoutUse P)))
    : Yields (libraryFields node f) fun l => Table (ThroughoutUse P) l.uses := by
  rw [libraryFields]
  refine Yields.skip fun usage => Yields.skip fun schemas => Yields.skip fun resourceTypes => ?_
  refine Yields.skip fun securitySchemes => Yields.skip fun annotations => ?_
  refine Yields.skip fun types => Yields.skip fun traits => Yields.skip fun annotationTypes => ?_
  split
  · exact Yields.bind (inside _ _) fun uses table => Yields.ok table
  · exact Yields.ok Table.nil

/-- What holds of all that fields declare holds throughout a library that is decoded from them. -/
theorem libraryFields_throughout (declares : Declares P) (f : Fields node)
    (inside : ∀ inner : Inside node, ∀ path, Yields (uses inner.1 path) (Table (ThroughoutUse P)))
    : Yields (libraryFields node f) (Library.Throughout P) := by
  intro l ok
  have uses := (uses_of_libraryFields f inside l ok).2
  exact .of_uses (declares f l ok) fun name used member => uses name _ member used rfl

/-- A use is a library in place or a path, of which nothing is known yet. -/
theorem use_throughout_of_inside (declares : Declares P) (node : Node) (path : String)
    (inside : ∀ inner : Inside node, ∀ path, Yields (uses inner.1 path) (Table (ThroughoutUse P)))
    : Yields (use node path) (ThroughoutUse P) := by
  have external (path : String) : ThroughoutUse P (.external path) := by
    intro m same
    cases same
  unfold use
  split
  · exact Yields.map fun _ _ => external _
  · exact Yields.map fun _ _ => external _
  · exact Yields.map fun _ _ => external _
  · refine Yields.skip fun f => ?_
    refine Yields.bind (libraryFields_throughout declares f inside) fun l holds => Yields.ok ?_
    intro m same
    cases same
    exact holds
  · refine Yields.skip fun included => ?_
    split
    · exact Yields.ok (external _)
    · exact Yields.error _
  · exact Yields.error _

/-- By induction on the size of nodes, from the libraries inside a node to those in it. -/
theorem uses_throughout (declares : Declares P) (node : Node) (path : String)
    : Yields (uses node path) (Table (ThroughoutUse P)) := by
  induction size : sizeOf node using Nat.strongRecOn generalizing node path with
  | ind n ih =>
      rw [uses]
      refine each_yields node path fun key inner path => ?_
      refine use_throughout_of_inside declares inner.1 path fun deeper path => ?_
      exact ih _ (size ▸ Nat.lt_trans deeper.2 inner.2) deeper.1 path rfl

/-- By induction on the size of nodes. -/
theorem library_throughout (declares : Declares P) (node : Node) (path : String)
    : Yields (library node path) (Library.Throughout P) :=
  Yields.skip fun f =>
    libraryFields_throughout declares f fun inner path => uses_throughout declares inner.1 path

end Decode

-----------------------------------------------------------------------------------------
-- Loading
-----------------------------------------------------------------------------------------

/-- What loading changes of a library by itself: it takes traits from files, and it remembers where
the library was. Neither matters to `P` if all traits are as `T` says. -/
structure Library.Loadable (P : Library → Prop) (T : Trait → Prop) : Prop where
  declares : Decode.Declares P
  /-- Traits are kept as they are, or come from files as bare declarations. -/
  declaration (node : Node) (path : String) : Yields (Decode.traitDeclaration node path) T
  reference {t loaded : Trait} (h : T t) (read : T loaded) : T { loaded with reference := t.reference }
  traits {l : Library} (h : P l) : ∀ entry ∈ l.traits, T entry.2
  withTraits {l : Library} (h : P l) {traits : Traits} (all : ∀ entry ∈ traits, T entry.2)
    (uses : Uses) (location : Option Path) : P { l with traits, uses, location }

namespace Library

variable {settings : Settings} {source : Source} {file : Path → String → Except Error Library}

/-- Traits are loaded first, then the libraries that are used. -/
theorem loadWith_eq (trait : Path → Trait → Except Error Trait) (directory : Path) (l : Library)
    : l.loadWith trait file directory
      = (l.traits.mapM fun (name, t) => do return (name, ← trait directory t))
        >>= fun traits => loadUses trait file directory l.uses
        >>= fun uses => .ok { l with traits, uses } := by
  cases l
  rfl

namespace Loadable

/-- A trait is in place, or it is read from a file that spells one. -/
theorem load_trait (loadable : Loadable P T) {directory : Path} {t : Trait} (h : T t)
    : Yields (Trait.load settings source directory t) T := by
  unfold Trait.load
  split
  · exact Yields.ok h
  · refine Yields.skip fun bytes => Yields.skip fun node => ?_
    refine Yields.bind (loadable.declaration node _) fun loaded read => Yields.ok ?_
    exact loadable.reference h read

theorem loadUses {load : Path → Trait → Except Error Trait}
    (files : ∀ directory path, Yields (file directory path) (Throughout P)) (directory : Path)
    {uses : Uses}
    (each : ∀ name used, (name, Use.loaded used) ∈ uses → ∀ directory,
      Yields (used.loadWith load file directory) (Throughout P))
    : Yields (loadUses load file directory uses) fun uses =>
        ∀ name used, (name, Use.loaded used) ∈ uses → used.Throughout P := by
  induction uses with
  | nil => exact Yields.ok nofun
  | cons entry uses ih =>
      obtain ⟨name, use⟩ := entry
      have first : Yields (loadUse load file directory use)
          fun use => ∀ used, use = .loaded used → used.Throughout P := by
        cases use with
        | external path =>
            refine Yields.bind (files directory path) fun used holds => Yields.ok ?_
            intro m same
            cases same
            exact holds
        | loaded used =>
            refine Yields.bind (each name used List.mem_cons_self _) fun used holds => Yields.ok ?_
            intro m same
            cases same
            exact holds
      have later := ih fun name used member => each name used (List.mem_cons_of_mem _ member)
      refine Yields.bind first fun use holds => Yields.bind later fun uses rest => Yields.ok ?_
      intro name used member
      rcases List.mem_cons.mp member with same | member
      · cases same
        exact holds used rfl
      · exact rest name used member

/-- Whatever files contain, loading them brings in nothing else. -/
theorem loadWith (loadable : Loadable P T)
    (files : ∀ directory path, Yields (file directory path) (Throughout P)) {l : Library}
    (h : l.Throughout P) (directory : Path)
    : Yields (l.loadWith (Trait.load settings source) file directory) (Throughout P) := by
  induction l using induct generalizing directory with
  | step l ih =>
      have own : ∀ entry ∈ l.traits,
          Yields (do return (entry.1, ← Trait.load settings source directory entry.2))
            fun entry : String × Trait => T entry.2 := by
        intro entry member
        have kept := loadable.traits h.own entry member
        exact Yields.bind (loadable.load_trait kept) fun t read => Yields.ok read
      have uses : Yields (Library.loadUses (Trait.load settings source) file directory l.uses) _ :=
        loadUses files directory fun name used member => ih name used member (h.used member)
      rw [loadWith_eq]
      refine Yields.bind (Yields.mapM own) fun traits own => ?_
      refine Yields.bind uses fun uses inside => Yields.ok ?_
      exact .of_uses (loadable.withTraits h.own own uses l.location) inside

/-- What a file spells is as its library was written, and it remembers where the file stands. -/
theorem read (loadable : Loadable P T) (path : Path)
    : Yields (read settings source path) (Throughout P) := by
  refine Yields.skip fun bytes => Yields.skip fun node => ?_
  refine Yields.bind (Decode.library_throughout loadable.declares node "") fun l h => Yields.ok ?_
  exact .of_uses (loadable.withTraits h.own (loadable.traits h.own) l.uses path.parent?)
    fun name used member => h.used member

/-- By induction on the number of files that may still name each other. -/
theorem loadFile (loadable : Loadable P T) (depth : Nat) (directory : Path) (file : String)
    : Yields (loadFile settings source depth directory file) (Throughout P) := by
  induction depth generalizing directory file with
  | zero => exact Yields.error _
  | succ depth ih =>
      refine Yields.bind (Yields.mapError (loadable.read _)) fun l holds => ?_
      exact loadable.loadWith ih holds _

/-- Once the libraries of a document are loaded, what is written holds of all of them. -/
theorem written (loadable : Loadable P T) {p : Parser} {d d' : Document} (written : d.Written)
    (loads : p.Loads d d')
    : d'.library.Throughout P := by
  have library : d.library.Throughout P := by
    cases written with
    | document decoded directory =>
        obtain ⟨f, -, -, fields, -⟩ := Decode.document_parts _ _ decoded
        exact Decode.libraryFields_throughout loadable.declares f
          (fun inner path => Decode.uses_throughout loadable.declares inner.1 path) _ fields
    | library decoded directory =>
        exact Decode.library_throughout loadable.declares _ _ _ decoded
  obtain ⟨l, loaded, rfl⟩ := loads
  exact loadable.loadWith (loadable.loadFile _) library _ l loaded

end Loadable

end Library

-----------------------------------------------------------------------------------------
-- What is left to be loaded
-----------------------------------------------------------------------------------------

namespace Library

/-- None of the libraries that are used is a path any more. -/
def Loaded (l : Library) : Prop := ∀ name use, (name, use) ∈ l.uses → ∃ m, use = .loaded m

variable {settings : Settings} {source : Source} {load : Path → Trait → Except Error Trait}
variable {file : Path → String → Except Error Library}

/-- What is loaded is no path any more. -/
theorem loadUse_loaded (directory : Path) (use : Use)
    : Yields (loadUse load file directory use) fun use => ∃ m, use = .loaded m := by
  cases use with
  | external path => exact Yields.skip fun m => Yields.ok ⟨m, rfl⟩
  | loaded m => exact Yields.skip fun m => Yields.ok ⟨m, rfl⟩

theorem loadUses_loaded (directory : Path) (uses : Uses)
    : Yields (loadUses load file directory uses) fun uses =>
        ∀ name use, (name, use) ∈ uses → ∃ m, use = .loaded m := by
  induction uses with
  | nil => exact Yields.ok (by simp)
  | cons entry uses ih =>
      refine Yields.bind (loadUse_loaded directory entry.2) fun use first => ?_
      refine Yields.bind ih fun uses rest => Yields.ok fun name other member => ?_
      rcases List.mem_cons.mp member with same | later
      · cases same
        exact first
      · exact rest name other later

/-- So it is throughout a library, by induction on what is written in place. -/
theorem loadWith_loaded (files : ∀ directory path, Yields (file directory path) (Throughout Loaded))
    (l : Library) (directory : Path)
    : Yields (l.loadWith load file directory) (Throughout Loaded) := by
  induction l using induct generalizing directory with
  | step l ih =>
      rw [loadWith_eq]
      refine Yields.skip fun traits => Yields.keep fun uses loads => Yields.ok ?_
      refine .of_uses (loadUses_loaded directory l.uses uses loads) ?_
      exact Loadable.loadUses files directory (fun name used member => ih name used member) uses loads

/-- By induction on the number of files that may still name each other. -/
theorem loadFile_loaded (depth : Nat) (directory : Path) (path : String)
    : Yields (loadFile settings source depth directory path) (Throughout Loaded) := by
  induction depth generalizing directory path with
  | zero => exact Yields.error _
  | succ depth ih => exact Yields.skip fun l => loadWith_loaded ih l _

end Library

/-- In a loaded document every library that is used is there. -/
theorem Parser.Loads.loaded {p : Parser} {d d' : Document} (loads : p.Loads d d')
    : d'.library.Throughout Library.Loaded := by
  obtain ⟨l, ok, rfl⟩ := loads
  exact Library.loadWith_loaded (Library.loadFile_loaded _) d.library d.directory l ok

/-- What is written in a document itself is in no other file. -/
theorem Document.Written.location {p : Parser} {d d' : Document} (written : d.Written)
    (loads : p.Loads d d')
    : d'.library.location = none := by
  have own : d.library.location = none := by
    cases written with
    | document decoded directory =>
        obtain ⟨f, -, -, fields, -⟩ := Decode.document_parts _ _ decoded
        exact (Decode.libraryFields_parts f _ fields).2.2.2.2
    | library decoded directory =>
        obtain ⟨f, -, fields⟩ := bind_eq_ok_iff.mp decoded
        exact (Decode.libraryFields_parts f _ fields).2.2.2.2
  obtain ⟨l, loaded, rfl⟩ := loads
  exact (Library.location_load loaded).trans own

end Raml
