import Raml.Proofs.Source.Files
import Raml.Source.Search

/-! The files of a tree that are kept in memory as well, and what either source tells of a path.

In a tree, a path leads to a file or to a directory. In memory there are no directories: one is told
from the files that are directly in it.
-/

namespace Raml

open Raml.Path (isBlank ofNames)

/-- What is kept in memory are the files of a tree, each under its relative path. -/
structure MemoryFiles.Holds (m : MemoryFiles) (t : FileTree) : Prop where
  start : ∃ entries, t.root.find t.workdir = .ok (.directory entries)
    ∧ (Entry.directory entries).Tidy
  unique : (m.files.map (·.1)).Nodup
  same : ∀ file, file ∈ m.files ↔ file ∈ t.files

/-- The name is that of a document, by its end. -/
def NamesDocument (name : String) : Prop := '.' :: documentExtension.toList <:+ name.toList

instance (name : String) : Decidable (NamesDocument name) :=
  inferInstanceAs (Decidable ('.' :: documentExtension.toList <:+ name.toList))

/-- What is directly in a directory that names lead to. -/
def FileTree.inside (t : FileTree) (names : List String) : List (String × Entry) :=
  match t.at? names with
  | .ok (.directory entries) => entries
  | _ => []

/-- An entry counts as a document in memory: as a file with a name before the extension. -/
def Entry.isKeptDocument (entry : String × Entry) : Bool :=
  !entry.2.isDirectory && entry.1 ≠ "." ++ documentExtension && NamesDocument entry.1

/-- The names in a directory that end like the name of a document. -/
def FileTree.namesEnding (t : FileTree) (names : List String) : List String :=
  ((Keyed.keys (t.inside names)).filter fun name => NamesDocument name).mergeSort (· ≤ ·)

/-- The names of the documents in a directory, as they count in memory. -/
def FileTree.namesKept (t : FileTree) (names : List String) : List String :=
  (Keyed.keys ((t.inside names).filter Entry.isKeptDocument)).mergeSort (· ≤ ·)

variable {t : FileTree} {m : MemoryFiles} {p path : Path} {x : Entry} {names : List String}
variable {name : String} {bytes : Bytes}

/-- The kind of a file that names lead to is told from the last of them. -/
theorem Path.extension?_ofNames (valid : ∀ s ∈ names, IsName s) (last : IsName name)
    : (ofNames (names ++ [name])).extension? = some documentExtension
      ↔ name ≠ "." ++ documentExtension ∧ NamesDocument name := by
  have plain : '.' ∉ documentExtension.toList := by decide
  rw [extension?_eq_some_iff plain (fileName?_ofNames valid last)]
  constructor
  · rintro ⟨stem, some, split⟩
    refine ⟨?_, stem, split.symm⟩
    rintro rfl
    exact some (List.append_left_eq_self.mp split.symm)
  · rintro ⟨other, stem, split⟩
    refine ⟨stem, ?_, split.symm⟩
    rintro rfl
    exact other (String.toList_injective split.symm)

/-- The names listed are those in the directory that end like the name of a document. -/
theorem FileTree.mem_namesEnding_iff
    : name ∈ t.namesEnding names ↔ name ∈ Keyed.keys (t.inside names) ∧ NamesDocument name := by
  simp [namesEnding]

/-- The names kept are those of entries that count as documents. -/
theorem FileTree.mem_namesKept_iff
    : name ∈ t.namesKept names
      ↔ ∃ entry ∈ t.inside names, Entry.isKeptDocument entry = true ∧ entry.1 = name := by
  simp only [namesKept, List.mem_mergeSort, Keyed.keys, List.mem_map, List.mem_filter, and_assoc]

-----------------------------------------------------------------------------------------
-- In memory
-----------------------------------------------------------------------------------------

namespace MemoryFiles.Holds

variable (held : m.Holds t)

include held

/-- What names lead to is tidy, and so are the names on the way. -/
theorem tidy_at? (h : t.at? names = .ok x) : x.Tidy ∧ ∀ s ∈ names, IsName s := by
  obtain ⟨entries, there, tidy⟩ := held.start
  rw [FileTree.at?, Entry.find_append, there, ok_bind] at h
  exact tidy.find h

/-- The files in memory are those of the tree, under the paths that their names make up. -/
theorem mem_files_iff
    : (path, bytes) ∈ m.files
      ↔ ∃ names, path = ofNames names ∧ t.at? names = .ok (.file bytes) := by
  obtain ⟨entries, there, tidy⟩ := held.start
  have within (names : List String) : t.at? names = (Entry.directory entries).find names := by
    rw [FileTree.at?, Entry.find_append, there, ok_bind]
  have root : (⟨""⟩ : Path) = ofNames [] := rfl
  rw [held.same, FileTree.files, there]
  simp only [root, within]
  exact tidy.mem_filesAt_iff (by simp)

/-- In memory a file is found under every path that consists of its names. -/
theorem get?_eq_some_iff (plain : p.Plain)
    : m.get? p = some bytes ↔ t.at? p.names = .ok (.file bytes) := by
  have listed : (ofNames p.names, bytes) ∈ m.files ↔ t.at? p.names = .ok (.file bytes) := by
    rw [held.mem_files_iff]
    constructor
    · rintro ⟨names, same, found⟩
      rwa [← Path.names_eq_of_ofNames (held.tidy_at? found).2 same.symm]
    · exact fun found => ⟨p.names, rfl, found⟩
  rw [← listed, MemoryFiles.get?, plain.normal_eq, Option.map_eq_some_iff]
  constructor
  · rintro ⟨⟨key, _⟩, found, rfl⟩
    have same : key = ofNames p.names := by simpa using List.find?_some found
    exact same ▸ List.mem_of_find?_eq_some found
  · intro member
    have some : (m.files.find? (·.1 = ofNames p.names)).isSome :=
      List.find?_isSome.mpr ⟨_, member, by simp⟩
    obtain ⟨file, found⟩ := Option.isSome_iff_exists.mp some
    have key : file.1 = ofNames p.names := by simpa using List.find?_some found
    have same := List.inj_on_of_nodup_map held.unique (List.mem_of_find?_eq_some found) member key
    exact ⟨file, found, congrArg Prod.snd same⟩

/-- A file is read from memory if the names of the path lead to it in the tree. -/
theorem read_eq_ok_iff (plain : p.Plain)
    : m.source.read p = .ok bytes ↔ t.at? p.names = .ok (.file bytes) := by
  rw [← held.get?_eq_some_iff plain]
  simp only [MemoryFiles.source]
  cases m.get? p <;> simp

/-- What is in memory directly in a directory has one name more. -/
theorem isIn_iff (plain : p.Plain) (found : t.at? names = .ok x)
    : MemoryFiles.isIn p (ofNames names) = true ↔ ∃ name, names = p.names ++ [name] := by
  have valid := (held.tidy_at? found).2
  rw [MemoryFiles.isIn, decide_eq_true_iff, plain.normal_eq]
  rcases List.eq_nil_or_concat' names with rfl | ⟨above, name, rfl⟩
  · have none : (ofNames []).parent? = none := by decide
    simp [none]
  · obtain ⟨inner, last⟩ := List.forall_mem_append.mp valid
    rw [Path.parent?_ofNames inner (last name (List.mem_singleton_self _)), Option.some.injEq]
    constructor
    · exact fun same => ⟨name, by rw [Path.names_eq_of_ofNames inner same]⟩
    · rintro ⟨other, same⟩
      rw [(List.append_inj' same rfl).1]

/-- In memory a directory is where a file is directly. -/
theorem isDirectory_iff (plain : p.Plain)
    : m.source.isDirectory p = true
      ↔ ∃ name bytes, t.at? (p.names ++ [name]) = .ok (.file bytes) := by
  simp only [MemoryFiles.source, List.any_eq_true]
  constructor
  · rintro ⟨⟨path, bytes⟩, member, inside⟩
    obtain ⟨names, rfl, found⟩ := held.mem_files_iff.mp member
    obtain ⟨name, rfl⟩ := (held.isIn_iff plain found).mp inside
    exact ⟨name, bytes, found⟩
  · rintro ⟨name, bytes, found⟩
    exact ⟨_, held.mem_files_iff.mpr ⟨_, rfl, found⟩, (held.isIn_iff plain found).mpr ⟨name, rfl⟩⟩

/-- An entry of a directory is what its name leads to. -/
theorem mem_inside_iff : (name, x) ∈ t.inside names ↔ t.at? (names ++ [name]) = .ok x := by
  have further : t.at? (names ++ [name]) = t.at? names >>= (·.find [name]) := by
    rw [FileTree.at?, FileTree.at?, ← List.append_assoc, Entry.find_append]
  rw [FileTree.inside, further]
  cases found : t.at? names with
  | error fault => simp [error_bind]
  | ok e =>
      cases (held.tidy_at? found).1 with
      | file bytes => simp [ok_bind, Entry.find]
      | @directory entries unique named within =>
          simp only [ok_bind, Entry.find]
          cases there : Keyed.get? entries name with
          | none =>
              refine ⟨fun member => ?_, fun h => by simp at h⟩
              simp [Keyed.get?_of_mem unique member] at there
          | some inner =>
              refine ⟨fun member => ?_, fun h => ?_⟩
              · have same := there.symm.trans (Keyed.get?_of_mem unique member)
                simp [Option.some.inj same]
              · cases h
                exact Keyed.mem_of_get? there

/-- No two entries of a directory have the same name. -/
theorem nodup_inside : (Keyed.keys (t.inside names)).Nodup := by
  rw [FileTree.inside]
  split
  · rename_i entries found
    cases (held.tidy_at? found).1 with
    | directory unique => exact unique
  · exact List.nodup_nil

/-- A path counts as a document in memory if what its names lead to does. -/
theorem mem_documents_iff (plain : p.Plain)
    : path ∈ (m.files.map (·.1)).filter
        (fun path => MemoryFiles.isIn p path && path.extension? = some documentExtension)
      ↔ ∃ entry ∈ t.inside p.names, Entry.isKeptDocument entry = true
          ∧ path = ofNames (p.names ++ [entry.1]) := by
  rw [List.mem_filter, List.mem_map, Bool.and_eq_true, decide_eq_true_iff]
  constructor
  · rintro ⟨⟨⟨_, bytes⟩, member, rfl⟩, inside, kind⟩
    obtain ⟨names, rfl, found⟩ := held.mem_files_iff.mp member
    obtain ⟨name, rfl⟩ := (held.isIn_iff plain found).mp inside
    obtain ⟨valid, last⟩ := List.forall_mem_append.mp (held.tidy_at? found).2
    have ends := (Path.extension?_ofNames valid (last name (List.mem_singleton_self _))).mp kind
    refine ⟨(name, .file bytes), held.mem_inside_iff.mpr found, ?_, rfl⟩
    simpa [Entry.isKeptDocument, Entry.isDirectory] using ends
  · rintro ⟨⟨name, e⟩, member, kept, rfl⟩
    have found := held.mem_inside_iff.mp member
    obtain ⟨valid, last⟩ := List.forall_mem_append.mp (held.tidy_at? found).2
    cases e with
    | directory entries => simp [Entry.isKeptDocument, Entry.isDirectory] at kept
    | file bytes =>
        have ends : name ≠ "." ++ documentExtension ∧ NamesDocument name := by
          simpa [Entry.isKeptDocument, Entry.isDirectory] using kept
        refine ⟨⟨_, held.mem_files_iff.mpr ⟨_, rfl, found⟩, rfl⟩, ?_, ?_⟩
        · exact (held.isIn_iff plain found).mpr ⟨name, rfl⟩
        · exact (Path.extension?_ofNames valid (last name (List.mem_singleton_self _))).mpr ends

/-- What is in a directory is called by names. -/
theorem isName_of_mem_inside (h : name ∈ Keyed.keys (t.inside names))
    : ∀ s ∈ names ++ [name], IsName s := by
  obtain ⟨entry, inside, rfl⟩ := List.mem_map.mp h
  exact (held.tidy_at? (held.mem_inside_iff.mp inside)).2

/-- In memory those documents are listed that are directly in a directory. -/
theorem documents_eq (plain : p.Plain)
    : m.source.documents p
      = .ok ((t.namesKept p.names).map fun name => ofNames (p.names ++ [name])) := by
  let kept := Keyed.keys ((t.inside p.names).filter Entry.isKeptDocument)
  have once : kept.Nodup := held.nodup_inside.sublist (List.Sublist.map _ List.filter_sublist)
  have parts (name : String) (member : name ∈ kept)
      : (ofNames (p.names ++ [name])).parts = p.names.map .name ++ [.name name] := by
    obtain ⟨entry, found, rfl⟩ := List.mem_map.mp member
    have valid := held.isName_of_mem_inside (List.mem_map_of_mem (List.mem_filter.mp found).1)
    rw [Path.parts_ofNames valid, List.map_append, List.map_singleton]
  refine congrArg Except.ok (Path.sort_eq_map parts (held.unique.filter _) once fun path =>
    (held.mem_documents_iff plain).trans ?_)
  · constructor
    · rintro ⟨entry, inside, isKept, rfl⟩
      exact ⟨_, List.mem_map.mpr ⟨entry, List.mem_filter.mpr ⟨inside, isKept⟩, rfl⟩, rfl⟩
    · rintro ⟨_, member, rfl⟩
      obtain ⟨entry, found, rfl⟩ := List.mem_map.mp member
      obtain ⟨inside, isKept⟩ := List.mem_filter.mp found
      exact ⟨entry, inside, isKept, rfl⟩

end MemoryFiles.Holds

-----------------------------------------------------------------------------------------
-- In the tree
-----------------------------------------------------------------------------------------

namespace FileTree

variable (held : m.Holds t) (plain : p.Plain)

include held plain

/-- A path leads where its names do, and to a directory if it ends like one. -/
theorem find_eq_ok_iff_of_holds
    : t.find p = .ok x
      ↔ p.Spelled ∧ t.at? p.names = .ok x ∧ (p.endsBlank = true → x.isDirectory = true) := by
  obtain ⟨entries, there, tidy⟩ := held.start
  exact find_eq_ok_iff there tidy plain

/-- A file is read from a tree where nothing stands behind its name. -/
theorem read_eq_ok_iff
    : t.source.read p = .ok bytes
      ↔ p.Spelled ∧ p.endsBlank = false ∧ t.at? p.names = .ok (.file bytes) := by
  have reads : t.source.read p = .ok bytes ↔ t.find p = .ok (.file bytes) := by
    simp only [FileTree.source, FileTree.read]
    cases t.find p with
    | error fault => simp [error_bind]
    | ok e => cases e <;> simp [ok_bind]
  rw [reads, find_eq_ok_iff_of_holds held plain]
  cases p.endsBlank <;> simp [Entry.isDirectory]

/-- In a tree a directory is one, whatever is in it. -/
theorem isDirectory_iff
    : t.source.isDirectory p = true
      ↔ p.Spelled ∧ ∃ entries, t.at? p.names = .ok (.directory entries) := by
  have is : t.source.isDirectory p = true ↔ ∃ entries, t.find p = .ok (.directory entries) := by
    simp only [FileTree.source, FileTree.isDirectory]
    cases t.find p with
    | error fault => simp
    | ok e => cases e <;> simp [Entry.isDirectory]
  rw [is]
  simp only [find_eq_ok_iff_of_holds held plain]
  simp [Entry.isDirectory]

end FileTree

end Raml
