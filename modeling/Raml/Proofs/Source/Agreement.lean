import Raml.Parse
import Raml.Proofs.Source.Listing

/-! Where a tree and memory that hold the same files tell the same of a path.

They need not: a tree has directories without files in them, and lists by a pattern; in memory
slashes behind the name of a file say nothing.
-/

namespace Raml

open FileTree (Way stepTo)
open Raml.Path (ofNames)

namespace Source

variable (s s' : Source) (p : Path)

/-- The same file is read, or none. -/
def SameFile : Prop := (s.read p).toOption = (s'.read p).toOption

/-- The path is that of a directory in both sources or in neither. -/
def SameKind : Prop := s.isDirectory p = s'.isDirectory p

/-- The same documents are listed, in the same order and up to single dots. -/
def SameListing : Prop :=
  (s.documents p).toOption.map (·.map Path.normal)
    = (s'.documents p).toOption.map (·.map Path.normal)

/-- The same text is parsed, and relative paths in it start from the same directory. -/
def SameDocument : Prop := (s.readDocument p).toOption = (s'.readDocument p).toOption

end Source

open Source

/-- Two computations have the same result, if they have one, whatever their errors are. -/
theorem toOption_eq_iff {ε α : Type} {x y : Except ε α}
    : x.toOption = y.toOption ↔ ∀ a, x = .ok a ↔ y = .ok a := by
  cases x <;> cases y <;> simp [Except.toOption, eq_comm]

section Agreement

variable {t : FileTree} {m : MemoryFiles} {p q : Path} {bytes : Bytes} {name : String}
variable {bound : Nat}

/-- A name behind the path of a directory is the last of its names. -/
theorem FileTree.Way.normal_stepTo (way : Way bound q []) (isName : IsName name)
    : (stepTo q name).normal = ofNames (q.names ++ [name]) := by
  obtain ⟨behind, names⟩ := (way.append isName).step
  rw [behind.plain.normal_eq, names, Path.isBlank_of_isName isName]
  rfl

/-- A path that ends with a name does not ask for a directory. -/
theorem FileTree.Way.endsBlank_stepTo (way : Way bound q []) (isName : IsName name)
    : (stepTo q name).endsBlank = false := by
  have last : (stepTo q name).segments.getLast? = .some name := by
    rw [stepTo]
    split
    · rw [Path.segments_of_slash isName.slash, List.getLast?_singleton]
    · obtain ⟨lead, -, behind, -⟩ := Path.segments_join way.some isName.slash
      rw [behind, List.getLast?_concat]
  rw [Path.endsBlank, last]
  exact Path.isBlank_of_isName isName

variable (held : m.Holds t)

include held

/-- Files are read alike but for those whose names something stands behind that says nothing. -/
theorem sameFile_iff (plain : p.Plain)
    : SameFile t.source m.source p
      ↔ ∀ bytes, t.at? p.names = .ok (.file bytes) → p.Spelled ∧ p.endsBlank = false := by
  rw [SameFile, toOption_eq_iff]
  refine forall_congr' fun bytes => ?_
  rw [FileTree.read_eq_ok_iff held plain, held.read_eq_ok_iff plain, ← and_assoc,
    and_iff_right_iff_imp]

/-- A path is of one kind in both if it leads to a directory exactly where a file is directly in it.
-/
theorem sameKind_iff (plain : p.Plain)
    : SameKind t.source m.source p
      ↔ ((p.Spelled ∧ ∃ entries, t.at? p.names = .ok (.directory entries))
        ↔ ∃ name bytes, t.at? (p.names ++ [name]) = .ok (.file bytes)) := by
  rw [SameKind, Bool.eq_iff_iff, FileTree.isDirectory_iff held plain, held.isDirectory_iff plain]

/-- A tree lists what ends like the name of a document, up to single dots. -/
theorem listing_tree (plain : p.Plain) (listable : p.Listable)
    : (t.source.documents p).toOption.map (·.map Path.normal)
      = some ((t.namesEnding p.names).map fun name => ofNames (p.names ++ [name])) := by
  obtain ⟨q, way, same, listed⟩ := FileTree.documents_eq held plain listable
  rw [listed, ← same]
  simp only [Except.toOption, Option.map_some, List.map_map]
  refine congrArg some (List.map_congr_left fun name member => ?_)
  have inside := (FileTree.mem_namesEnding_iff.mp member).1
  exact way.normal_stepTo (held.isName_of_mem_inside inside name (by simp))

/-- What is listed in memory has no single dots. -/
theorem listing_memory (plain : p.Plain)
    : (m.source.documents p).toOption.map (·.map Path.normal)
      = some ((t.namesKept p.names).map fun name => ofNames (p.names ++ [name])) := by
  rw [held.documents_eq plain]
  simp only [Except.toOption, Option.map_some, List.map_map]
  refine congrArg some (List.map_congr_left fun name member => ?_)
  obtain ⟨entry, inside, -, rfl⟩ := FileTree.mem_namesKept_iff.mp member
  have valid := held.isName_of_mem_inside (List.mem_map_of_mem (f := Prod.fst) inside)
  rw [Function.comp_apply, Path.normal_ofNames valid]

/-- The names that a tree lists are those kept in memory, unless an entry only looks like a
document. -/
theorem namesEnding_eq
    (h : ∀ entry ∈ t.inside p.names, NamesDocument entry.1 → Entry.isKeptDocument entry = true)
    : t.namesEnding p.names = t.namesKept p.names := by
  have once : (Keyed.keys (t.inside p.names)).Nodup := held.nodup_inside
  refine Path.mergeSort_congr (once.filter _) ?_ fun name => ?_
  · exact once.sublist (List.Sublist.map _ List.filter_sublist)
  · constructor
    · intro member
      obtain ⟨key, ends⟩ := List.mem_filter.mp member
      obtain ⟨entry, inside, rfl⟩ := List.mem_map.mp key
      have kept := h entry inside (by simpa using ends)
      exact List.mem_map_of_mem (List.mem_filter.mpr ⟨inside, kept⟩)
    · intro member
      obtain ⟨entry, found, rfl⟩ := List.mem_map.mp member
      obtain ⟨inside, kept⟩ := List.mem_filter.mp found
      refine List.mem_filter.mpr ⟨List.mem_map_of_mem inside, ?_⟩
      exact (Bool.and_eq_true_iff.mp kept).2

/-- Documents are listed alike if what ends like the name of one is a file with a name before the
end. -/
theorem sameListing_iff (plain : p.Plain) (listable : p.Listable)
    : SameListing t.source m.source p
      ↔ ∀ entry ∈ t.inside p.names, NamesDocument entry.1 → Entry.isKeptDocument entry = true := by
  rw [SameListing, listing_tree held plain listable, listing_memory held plain, Option.some.injEq]
  constructor
  · intro same entry inside ends
    have key := List.mem_map_of_mem (f := Prod.fst) inside
    have listed := List.mem_map_of_mem (f := fun name => ofNames (p.names ++ [name]))
      (FileTree.mem_namesEnding_iff.mpr ⟨key, ends⟩)
    rw [same] at listed
    obtain ⟨name, member, equal⟩ := List.mem_map.mp listed
    obtain ⟨other, inside', kept, rfl⟩ := FileTree.mem_namesKept_iff.mp member
    have valid := held.isName_of_mem_inside key
    have valid' := held.isName_of_mem_inside (List.mem_map_of_mem (f := Prod.fst) inside')
    have called := congrArg Path.names equal
    rw [Path.names_ofNames_of_isName valid, Path.names_ofNames_of_isName valid',
      List.append_cancel_left_eq, List.singleton_inj] at called
    exact List.inj_on_of_nodup_map held.nodup_inside inside' inside called ▸ kept
  · intro h
    rw [namesEnding_eq held h]

/-- A document that is listed holds the same text in the tree and in memory. -/
theorem readFile_both {bound : Nat} (way : Way bound q []) (same : q.names = p.names)
    (short : bound + 1 + FileTree.longestName ≤ FileTree.longestPath)
    (member : name ∈ t.namesKept p.names)
    : ∃ bytes, t.source.readFile (stepTo q name) = .ok bytes
        ∧ m.source.readFile (ofNames (p.names ++ [name])) = .ok bytes := by
  obtain ⟨⟨name, e⟩, inside, kept, rfl⟩ := FileTree.mem_namesKept_iff.mp member
  have valid := held.isName_of_mem_inside (List.mem_map_of_mem (f := Prod.fst) inside)
  have isName := valid name (by simp)
  have there := held.mem_inside_iff.mp inside
  cases e with
  | directory entries => simp [Entry.isKeptDocument, Entry.isDirectory] at kept
  | file bytes =>
      obtain ⟨behind, names⟩ := (way.append isName).step
      have called : (stepTo q name).names = p.names ++ [name] := by
        rw [names, same, Path.isBlank_of_isName isName]
        rfl
      refine ⟨bytes, mapError_eq_ok_iff.mpr ?_, mapError_eq_ok_iff.mpr ?_⟩
      · rw [FileTree.read_eq_ok_iff held behind.plain, called]
        exact ⟨behind.spelled short, way.endsBlank_stepTo isName, there⟩
      · rw [held.read_eq_ok_iff (Path.plain_ofNames valid), Path.names_ofNames_of_isName valid]
        exact there

/-- Where the listings agree, so do the contents, as a listed file is read alike. -/
theorem readDirectory_eq (plain : p.Plain) (listable : p.Listable)
    (listing : SameListing t.source m.source p)
    : t.source.readDirectory p = m.source.readDirectory p := by
  obtain ⟨q, way, same, listed⟩ := FileTree.documents_eq held plain listable
  have names := namesEnding_eq held ((sameListing_iff held plain listable).mp listing)
  have both (name : String) (member : name ∈ t.namesKept p.names) :=
    readFile_both held way same listable.room member
  choose! text inTree inMemory using both
  have tree : ((t.namesKept p.names).map (stepTo q)).mapM t.source.readFile
      = .ok ((t.namesKept p.names).map text) := by
    rw [List.mapM_map]
    exact mapM_eq_map inTree
  have memory : ((t.namesKept p.names).map fun name => ofNames (p.names ++ [name])).mapM
      m.source.readFile = .ok ((t.namesKept p.names).map text) := by
    rw [List.mapM_map]
    exact mapM_eq_map inMemory
  rw [readDirectory, readDirectory, listed, held.documents_eq plain, names]
  simp only [Except.mapError, ok_bind, tree, memory]

/-- Where files and directories are the same, so are the documents to be parsed, those of a
directory if it is listed alike. -/
theorem sameDocument (plain : p.Plain) (file : SameFile t.source m.source p)
    (kind : SameKind t.source m.source p)
    (listing : m.source.isDirectory p = true →
      p.Listable ∧ SameListing t.source m.source p)
    : SameDocument t.source m.source p := by
  rw [SameKind] at kind
  rw [SameDocument, readDocument, readDocument, kind]
  cases directory : m.source.isDirectory p with
  | true =>
      obtain ⟨listable, same⟩ := listing directory
      rw [if_pos rfl, if_pos rfl, readDirectory_eq held plain listable same]
  | false =>
      rw [if_neg (by decide), if_neg (by decide), toOption_eq_iff]
      intro result
      simp only [readFile, bind_eq_ok_iff, mapError_eq_ok_iff, toOption_eq_iff.mp file]

/-- Where a tree and memory with the same files tell the same of a plain path. Files are read alike
unless something stands behind the names of one that says nothing. The kind is the same where a
directory has a file directly in it, and where there is no directory. If the path holds no wildcards,
listings are the same unless something ends like the name of a document but is none: a directory, or
a file that has nothing before the end. Where all are the same, the same text is parsed, and paths in
it start from the same directory. -/
theorem sources_agree_iff (plain : p.Plain)
    : (SameFile t.source m.source p
        ↔ ∀ bytes, t.at? p.names = .ok (.file bytes) → p.Spelled ∧ p.endsBlank = false)
      ∧ (SameKind t.source m.source p
        ↔ ((p.Spelled ∧ ∃ entries, t.at? p.names = .ok (.directory entries))
          ↔ ∃ name bytes, t.at? (p.names ++ [name]) = .ok (.file bytes)))
      ∧ (p.Listable →
          (SameListing t.source m.source p
            ↔ ∀ entry ∈ t.inside p.names,
                NamesDocument entry.1 → Entry.isKeptDocument entry = true))
      ∧ (SameFile t.source m.source p → SameKind t.source m.source p →
          (m.source.isDirectory p = true → p.Listable ∧ SameListing t.source m.source p) →
          SameDocument t.source m.source p) :=
  ⟨sameFile_iff held plain, sameKind_iff held plain, sameListing_iff held plain,
    sameDocument held plain⟩

end Agreement

/-- A directory with two documents and notes in it. -/
def menuTree : FileTree :=
  { root := .directory [("api", .directory
      [("b.raml", .file [0x62]), ("a.raml", .file [0x61]), ("notes.md", .file [])])]
    workdir := [] }

/-- The same files in memory. -/
def menuFiles : MemoryFiles :=
  ⟨[(⟨"api/a.raml"⟩, [0x61]), (⟨"api/notes.md"⟩, []), (⟨"api/b.raml"⟩, [0x62])]⟩

/-- The menu is kept in memory as it is in the tree. -/
theorem menuFiles_holds : menuFiles.Holds menuTree := by
  refine ⟨⟨_, rfl, .directory (by decide) (by decide) ?_⟩, by decide, fun file => ?_⟩
  · intro entry member
    rw [List.mem_singleton.mp member]
    refine .directory (by decide) (by decide) fun entry member => ?_
    simp only [List.mem_cons, List.not_mem_nil, or_false] at member
    rcases member with rfl | rfl | rfl <;> exact .file _
  · have files : menuTree.files
        = [(⟨"api/b.raml"⟩, [0x62]), (⟨"api/a.raml"⟩, [0x61]), (⟨"api/notes.md"⟩, [])] := by decide +kernel
    rw [files]
    exact List.Perm.mem_iff (by decide)

/-- Both sources tell the same of the directory with the menu. -/
theorem sources_agree_iff_menu
    : menuFiles.Holds menuTree ∧ Path.Plain ⟨"./api/"⟩ ∧ Path.Listable ⟨"./api/"⟩
      ∧ SameFile menuTree.source menuFiles.source ⟨"./api/"⟩
      ∧ SameKind menuTree.source menuFiles.source ⟨"./api/"⟩
      ∧ SameListing menuTree.source menuFiles.source ⟨"./api/"⟩
      ∧ SameDocument menuTree.source menuFiles.source ⟨"./api/"⟩ := by
  have names : Path.names ⟨"./api/"⟩ = ["api"] := by decide
  have plain : Path.Plain ⟨"./api/"⟩ := ⟨by decide +kernel, by decide⟩
  have listable : Path.Listable ⟨"./api/"⟩ := by
    have behind : (Path.segments ⟨"./api/"⟩).dropWhile (· = ".") = ["api", ""] := by decide
    exact ⟨by decide, fun rest blank => by simp [behind] at blank, by decide⟩
  obtain ⟨file, kind, listing, document⟩ := sources_agree_iff menuFiles_holds plain
  rw [names] at file kind listing
  have sameFile := file.mpr fun bytes found => by cases found
  have sameKind := kind.mpr
    (iff_of_true ⟨⟨by decide, by decide⟩, _, rfl⟩ ⟨"a.raml", [0x61], rfl⟩)
  have sameListing := (listing listable).mpr (by decide)
  exact ⟨menuFiles_holds, plain, listable, sameFile, sameKind, sameListing,
    document sameFile sameKind fun _ => ⟨listable, sameListing⟩⟩

/-- A directory with brackets in its name. -/
def bracketTree : FileTree :=
  ⟨.directory [("a[1]", .directory [("x.raml", .file [])])], []⟩

def bracketFiles : MemoryFiles := ⟨[(⟨"a[1]/x.raml"⟩, [])]⟩

/-- The directory with a bracket is kept in memory as it is in the tree. -/
theorem bracketFiles_holds : bracketFiles.Holds bracketTree := by
  refine ⟨⟨_, rfl, .directory (by decide) (by decide) ?_⟩, by decide, fun file => ?_⟩
  · intro entry member
    rw [List.mem_singleton.mp member]
    refine .directory (by decide) (by decide) fun entry member => ?_
    rw [List.mem_singleton.mp member]
    exact .file _
  · have files : bracketTree.files = [(⟨"a[1]/x.raml"⟩, [])] := by decide +kernel
    rw [files, bracketFiles]

/-- What is in a directory with brackets in its name is listed in memory only. -/
theorem not_sources_agree
    : ¬ ∀ (t : FileTree) (m : MemoryFiles) (p : Path), m.Holds t → p.Plain →
        SameFile t.source m.source p ∧ SameKind t.source m.source p
          ∧ SameListing t.source m.source p ∧ SameDocument t.source m.source p := by
  intro all
  have plain : Path.Plain ⟨"a[1]"⟩ := ⟨by decide +kernel, by decide⟩
  obtain ⟨-, -, listing, -⟩ := all bracketTree bracketFiles ⟨"a[1]"⟩ bracketFiles_holds plain
  have tree : bracketTree.source.documents ⟨"a[1]"⟩ = .ok [] := by decide +kernel
  have memory : bracketFiles.source.documents ⟨"a[1]"⟩ = .ok [⟨"a[1]/x.raml"⟩] := by decide +kernel
  rw [SameListing, tree, memory] at listing
  cases listing

end Raml
