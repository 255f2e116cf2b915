import Raml.Proofs.Loading.Named
import Raml.Source.Memory

/-! What is left to be loaded when the files that a document names have been loaded.

Libraries are gone through again once they are read, and traits are not: where the file of a trait
is the path of another file, that one is not read.
-/

namespace Raml

open Yaml (Node)

-----------------------------------------------------------------------------------------
-- Traits in files
-----------------------------------------------------------------------------------------

/-- The path of a file that stands in a node for what is in that file. -/
def Decode.namedPath? : Node → Option String
  | .tagged tag content =>
      if Yaml.bareTag tag = "include" then (text content "").toOption else none
  | .bool b => (text (.bool b) "").toOption
  | .num n => (text (.num n) "").toOption
  | .str s => some s
  | _ => none

/-- The file that is named by the file in which a trait is declared. -/
def Trait.nextFile? (settings : Settings) (source : Source) (directory : Path) (t : Trait)
    : Option String := do
  let file ← t.source
  let bytes ← (source.readFile (directory.join ⟨file⟩)).toOption
  let node ← (settings.readNode bytes).toOption
  Decode.namedPath? node

namespace Decode

/-- Whether a node is a text does not depend on the way to it. -/
theorem toOption_text (node : Node) (path path' : String)
    : (text node path).toOption = (text node path').toOption := by
  cases node <;> rfl

/-- A path that is included is the path that is named. -/
theorem namedPath?_of_included {node : Node} {path file : String}
    (h : includedPath? node path = .ok (some file))
    : namedPath? node = some file := by
  unfold includedPath? at h
  split at h
  · rename_i tag content
    split at h
    · rename_i includes
      obtain ⟨file, named, same⟩ := map_eq_ok_iff.mp h
      cases same
      rw [namedPath?, if_pos includes, toOption_text content "" path, named]
      rfl
    · cases h
  · cases h

/-- A declaration is in another file if and only if it is the path of that file. -/
theorem source_of_traitDeclaration (node : Node) (path : String)
    : Yields (traitDeclaration node path) fun t => t.source = namedPath? node := by
  cases node with
  | null => exact Yields.ok rfl
  | bool b => exact Yields.ok rfl
  | num n => exact Yields.ok rfl
  | str s => exact Yields.ok rfl
  | seq nodes => exact Yields.error _
  | map entries =>
      refine Yields.skip fun f => Yields.skip fun usage => Yields.skip fun resourcePath => ?_
      refine Yields.skip fun resourcePathName => Yields.skip fun methodName => ?_
      exact Yields.skip fun method => Yields.ok rfl
  | tagged tag content =>
      refine Yields.keep fun included found => ?_
      split
      · exact Yields.ok (namedPath?_of_included found).symm
      · exact Yields.error _

end Decode

namespace Trait

variable {settings : Settings} {source : Source} {directory : Path} {t t' : Trait}

/-- A trait that has been loaded is in the file that its file names, if it names one. -/
theorem source_of_load (h : t.load settings source directory = .ok t')
    : t'.source = t.nextFile? settings source directory := by
  unfold load at h
  split at h
  · rename_i own
    cases h
    rw [nextFile?, own]
    rfl
  · rename_i file named
    obtain ⟨bytes, read, h⟩ := bind_eq_ok_iff.mp h
    obtain ⟨node, spelled, h⟩ := bind_eq_ok_iff.mp h
    obtain ⟨loaded, decoded, h⟩ := bind_eq_ok_iff.mp h
    cases h
    rw [nextFile?, named]
    simp only [Option.bind_eq_bind, Option.bind_some, read, spelled, Except.toOption]
    exact Decode.source_of_traitDeclaration node file loaded decoded

end Trait

-----------------------------------------------------------------------------------------
-- Documents
-----------------------------------------------------------------------------------------

namespace Library

/-- Neither a use nor a declaration of a trait is the path of a file. -/
structure Whole (l : Library) : Prop where
  uses : l.Loaded
  traits : ∀ entry ∈ l.traits, entry.2.source = none

end Library

namespace Parser

variable {p : Parser} {d d' : Document}

/-- The names of files that are left once a document has been loaded. No use of a library is left,
however deep. A trait that is declared in the document or in a library that it leads to is left in
a file if and only if it was declared in a file that is but the path of that one. -/
theorem Loads.left_in_files (loads : p.Loads d d')
    : (∀ path m', d'.library.Reaches path m' → m'.Loaded
        ∧ ∃ there m, d.library.LeadsTo p.settings p.source d.directory path there m
          ∧ Keyed.Related (fun t t' => t'.source = t.nextFile? p.settings p.source there)
              m.traits m'.traits)
      ∧ (d'.library.Throughout Library.Whole
          ↔ ∀ path there m, d.library.LeadsTo p.settings p.source d.directory path there m →
              ∀ entry ∈ m.traits, entry.2.nextFile? p.settings p.source there = none) := by
  obtain ⟨l', loaded, rfl⟩ := loads
  have loads := Library.loads_of_load loaded
  have named {there : Path} {m m' : Library} (h : m.Loads p.settings p.source there m')
      : Keyed.Related (fun t t' => t'.source = t.nextFile? p.settings p.source there)
          m.traits m'.traits :=
    h.parts.traits.mono fun _ _ => Trait.source_of_load
  have used : l'.Throughout Library.Loaded := Parser.Loads.loaded (p := p) ⟨l', loaded, rfl⟩
  refine ⟨fun path m' reaches => ⟨used path m' reaches, ?_⟩, fun whole => ?_, fun none => ?_⟩
  · obtain ⟨there, m, leads, inside⟩ := loads.backward reaches
    exact ⟨there, m, leads, named inside⟩
  · intro path there m leads entry member
    obtain ⟨m', reaches, inside⟩ := loads.forward leads
    obtain ⟨t', member', same⟩ := (named inside).forward member
    exact same.symm.trans ((whole path m' reaches.reaches).traits _ member')
  · intro path m' reaches
    obtain ⟨there, m, leads, inside⟩ := loads.backward reaches
    refine ⟨used path m' reaches, fun entry member => ?_⟩
    obtain ⟨t, declared, same⟩ := (named inside).backward member
    exact same.trans (none path there m leads _ declared)

/-- A document that declares a trait in a file and uses a library in another one. -/
def listing : Node :=
  .map [(.str "title", .str "Listing"),
    (.str "traits", .map [(.str "paged", .str "paged.raml")]),
    (.str "uses", .map [(.str "lists", .str "lists.raml")])]

/-- The file of the trait names another one, and so does the library. -/
def listingFiles : MemoryFiles :=
  .ofList [("paged.raml", Bytes.ofText "headers.raml"),
    ("headers.raml", Bytes.ofText "usage: pages"),
    ("lists.raml", Bytes.ofText "traits:
  sorted: sorted.raml"),
    ("sorted.raml", Bytes.ofText "usage: lists")]

/-- The traits of a library, and the files in which they have still to be found. -/
def traitFiles (l : Library) : List (String × Option String) :=
  l.traits.map fun entry => (entry.1, entry.2.source)

/-- The listing is loaded from its files. -/
theorem listing_loads
    : ∃ d₀ d : Document, d₀.Written ∧ Parser.Loads { source := listingFiles.source } d₀ d
        ∧ traitFiles d.library = [("paged", some "headers.raml")]
        ∧ (d.library.namespace? "lists").map traitFiles = some [("sorted", none)] := by
  have found : (normal? { source := listingFiles.source } listing).any (fun (_, d, _) =>
      traitFiles d.library = [("paged", some "headers.raml")]
        ∧ (d.library.namespace? "lists").map traitFiles = some [("sorted", none)]) = true := by
    decide +kernel
  obtain ⟨⟨d₀, d, n⟩, normal, checked⟩ := (Option.any_eq_true _ _).mp found
  obtain ⟨written, loads, -⟩ := normal_of_normal? normal
  exact ⟨d₀, d, written, loads, of_decide_eq_true checked⟩

/-- The trait of the document is left in the file that its own file names. -/
theorem left_in_files_listing
    : ∃ d₀ d : Document, Parser.Loads { source := listingFiles.source } d₀ d
        ∧ d.library.Throughout Library.Loaded
        ∧ ∃ t, ("paged", t) ∈ d₀.library.traits
          ∧ t.nextFile? {} listingFiles.source d₀.directory = some "headers.raml" := by
  obtain ⟨d₀, d, -, loads, own, -⟩ := listing_loads
  have left := (Loads.left_in_files loads).1
  obtain ⟨-, _, _, leads, traits⟩ := left [] d.library (.self _)
  cases leads
  refine ⟨d₀, d, loads, fun path m' reaches => (left path m' reaches).1, ?_⟩
  obtain ⟨⟨name, t'⟩, same, named⟩ := List.map_eq_singleton_iff.mp own
  obtain ⟨rfl, pending⟩ := Prod.mk.inj named
  obtain ⟨t, member, next⟩ := traits.backward (same ▸ List.mem_singleton_self (_, t'))
  exact ⟨t, member, next.symm.trans pending⟩

/-- A document that has been loaded may still name the file of a trait. -/
theorem not_whole_of_loads
    : ¬∀ (p : Parser) (d₀ d : Document), d₀.Written → p.Loads d₀ d
        → d.library.Throughout Library.Whole := by
  intro whole
  obtain ⟨d₀, d, written, loads, own, -⟩ := listing_loads
  have none := (whole _ d₀ d written loads).own.traits
  obtain ⟨entry, same, named⟩ := List.map_eq_singleton_iff.mp own
  have pending := (Prod.mk.inj named).2
  rw [none entry (same ▸ List.mem_singleton_self entry)] at pending
  cases pending

end Parser

end Raml
