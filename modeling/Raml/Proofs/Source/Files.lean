import Raml.Proofs.Source.Frame
import Raml.Proofs.Source.Names
import Raml.Source.Memory

/-! Files in a tree and the same files in memory, as far as single paths lead to them.

In a tree, directories stand by themselves, and a path that ends in what says nothing leads to a
directory or nowhere. In memory there are but the names of files.
-/

namespace Raml

open Raml.Path (isBlank ofNames)

namespace Entry

/-- What is in a directory is called by names, each of them once. -/
inductive Tidy : Entry → Prop where
  | file (bytes : Bytes) : Tidy (.file bytes)
  | directory {entries : List (String × Entry)} (unique : (Keyed.keys entries).Nodup)
      (named : ∀ entry ∈ entries, IsName entry.1) (inside : ∀ entry ∈ entries, Tidy entry.2)
      : Tidy (.directory entries)

variable {e x : Entry} {names : List String} {bytes : Bytes}

/-- Names lead on from where others end. -/
theorem find_append (e : Entry) (names more : List String)
    : e.find (names ++ more) = e.find names >>= (·.find more) := by
  induction names generalizing e with
  | nil => rfl
  | cons name names ih =>
      cases e with
      | file bytes => rfl
      | directory entries =>
          rw [List.cons_append, find, find]
          cases Keyed.get? entries name with
          | none => rfl
          | some inner => exact ih inner

/-- Only names lead on in a tidy tree, and what they lead to is tidy. -/
theorem Tidy.find (tidy : e.Tidy) (h : e.find names = .ok x)
    : x.Tidy ∧ ∀ s ∈ names, IsName s := by
  induction names generalizing e with
  | nil =>
      cases h
      exact ⟨tidy, by simp⟩
  | cons name names ih =>
      cases tidy with
      | file bytes => cases h
      | @directory entries unique named inside =>
          cases found : Keyed.get? entries name with
          | none => simp [Entry.find, found] at h
          | some inner =>
              have member := Keyed.mem_of_get? found
              obtain ⟨tidy, rest⟩ := ih (inside _ member) (by simpa [Entry.find, found] using h)
              exact ⟨tidy, List.forall_mem_cons.mpr ⟨named _ member, rest⟩⟩

theorem mem_filesIn_iff {path base : Path} {entries : List (String × Entry)}
    : (path, bytes) ∈ filesIn base entries
      ↔ ∃ entry ∈ entries, (path, bytes) ∈ entry.2.filesAt (base.join ⟨entry.1⟩) := by
  induction entries with
  | nil => simp [filesIn]
  | cons entry entries ih =>
      obtain ⟨name, e⟩ := entry
      simp [filesIn, ih]

/-- The files in a tree are what names lead to. -/
theorem Tidy.mem_filesAt_iff (tidy : e.Tidy) {path : Path} {lead : List String}
    (valid : ∀ s ∈ lead, IsName s)
    : (path, bytes) ∈ e.filesAt (ofNames lead)
      ↔ ∃ names, path = ofNames (lead ++ names) ∧ e.find names = .ok (.file bytes) := by
  induction tidy generalizing lead with
  | file old =>
      rw [filesAt, List.mem_singleton]
      constructor
      · rintro ⟨⟩
        exact ⟨[], by simp, rfl⟩
      · rintro ⟨names, rfl, found⟩
        cases names with
        | nil =>
            cases found
            simp
        | cons => cases found
  | @directory entries unique named inside ih =>
      have deeper {name : String} {inner : Entry} (member : (name, inner) ∈ entries)
          : (path, bytes) ∈ inner.filesAt ((ofNames lead).join ⟨name⟩)
            ↔ ∃ names, path = ofNames (lead ++ name :: names)
              ∧ inner.find names = .ok (.file bytes) := by
        have isName := named _ member
        have longer : ∀ s ∈ lead ++ [name], IsName s :=
          List.forall_mem_append.mpr ⟨valid, List.forall_mem_singleton.mpr isName⟩
        rw [Path.join_ofNames valid isName, ih _ member longer]
        simp
      rw [filesAt, mem_filesIn_iff]
      constructor
      · rintro ⟨⟨name, inner⟩, member, within⟩
        obtain ⟨names, same, found⟩ := (deeper member).mp within
        exact ⟨name :: names, same, by simp [Entry.find, Keyed.get?_of_mem unique member, found]⟩
      · rintro ⟨names, same, found⟩
        cases names with
        | nil => cases found
        | cons name names =>
            cases there : Keyed.get? entries name with
            | none => simp [Entry.find, there] at found
            | some inner =>
                have member := Keyed.mem_of_get? there
                refine ⟨_, member, (deeper member).mpr ⟨names, same, ?_⟩⟩
                simpa [Entry.find, there] using found

end Entry

-----------------------------------------------------------------------------------------
-- Paths in a tree
-----------------------------------------------------------------------------------------

namespace Path

variable {p : Path}

/-- The path ends in what says nothing, as in a slash. -/
def endsBlank (p : Path) : Bool := p.segments.getLast?.any isBlank

/-- A path that is given and not too long. -/
structure Spelled (p : Path) : Prop where
  some : p.text ≠ ""
  short : p.text.utf8ByteSize ≤ FileTree.longestPath

/-- Between what is put together stands but the separator. -/
theorem mem_intercalate {α : Type} {separator c : α} {lists : List (List α)}
    (h : c ∈ [separator].intercalate lists)
    : c = separator ∨ ∃ list ∈ lists, c ∈ list := by
  induction lists with
  | nil => simp at h
  | cons list lists ih =>
      cases lists with
      | nil => exact .inr ⟨list, List.mem_cons_self, by simpa using h⟩
      | cons next lists =>
          rw [List.intercalate_cons_cons, List.mem_append, List.mem_append,
            List.mem_singleton] at h
          rcases h with (here | between) | later
          · exact .inr ⟨list, List.mem_cons_self, here⟩
          · exact .inl between
          · refine (ih later).imp_right fun ⟨list, member, inside⟩ => ?_
            exact ⟨list, List.mem_cons_of_mem _ member, inside⟩

/-- There is no zero byte in a path whose names have none. -/
theorem not_mem_text {p : Path} (named : ∀ s ∈ p.names, IsName s)
    : ∀ c ∈ p.text.toList, c.toNat ≠ 0 := by
  intro c member zero
  rw [← p.intercalate_segments, String.toList_intercalate] at member
  rcases mem_intercalate member with rfl | ⟨_, segment, inside⟩
  · exact absurd zero (by decide)
  · obtain ⟨s, here, rfl⟩ := List.mem_map.mp segment
    cases blank : isBlank s with
    | true =>
        rcases isBlank_iff.mp blank with rfl | rfl
        · simp at inside
        · rw [List.mem_singleton.mp inside] at zero
          exact absurd zero (by decide)
    | false =>
        exact (named s (List.mem_filter.mpr ⟨here, by simp [blank]⟩)).zero c inside zero

end Path

namespace FileTree

open Entry (Tidy)

variable {t : FileTree} {p : Path} {e x : Entry} {names : List String} {bytes : Bytes}

/-- What names lead to from where relative paths start. -/
def at? (t : FileTree) (names : List String) : Except FileFault Entry :=
  t.root.find (t.workdir ++ names)

/-- A path of names is refused only for being empty or too long. -/
theorem spelling_eq_ok_iff (named : ∀ s ∈ p.names, IsName s)
    : spelling p = .ok () ↔ p.Spelled := by
  have zero : p.text.toList.any (·.toNat = 0) = false := by
    simpa using Path.not_mem_text named
  unfold spelling
  rw [zero, if_neg (by simp)]
  split
  · rename_i none
    exact ⟨fun h => by simp at h, fun spelled => absurd none spelled.some⟩
  · rename_i some
    split
    · rename_i long
      exact ⟨fun h => by simp at h, fun spelled => absurd spelled.short (by omega)⟩
    · rename_i short
      exact ⟨fun _ => ⟨some, by omega⟩, fun _ => rfl⟩

/-- Names lead on only from a directory. -/
theorem isDirectory_of_find {name : String} (h : e.find (name :: names) = .ok x)
    : e.isDirectory = true := by
  cases e with
  | file bytes => cases h
  | directory entries => rfl

section Follow

variable {start stop segments : List String} {s : String} (h : t.root.find start = .ok e)

include h

/-- What says nothing has to stand in a directory, and leads nowhere else. -/
theorem follow_blank (blank : isBlank s = true)
    : t.follow start (s :: segments) = .ok stop
      ↔ e.isDirectory = true ∧ t.follow start segments = .ok stop := by
  rw [follow, h, ok_bind]
  cases e with
  | file bytes => simp [Entry.isDirectory]
  | directory entries => simp [Path.isBlank_iff.mp blank, Entry.isDirectory]

/-- What says something is the name of an entry. -/
theorem follow_name (tidy : e.Tidy) (blank : isBlank s = false) (up : s ≠ "..")
    : t.follow start (s :: segments) = .ok stop
      ↔ ∃ inner, e.find [s] = .ok inner ∧ t.follow (start ++ [s]) segments = .ok stop := by
  have further : t.root.find (start ++ [s]) = e.find [s] := by rw [Entry.find_append, h, ok_bind]
  rw [follow, h, ok_bind, further]
  cases e with
  | file bytes => simp [Entry.find]
  | directory entries =>
      have named : ¬ (s = "" ∨ s = ".") := fun h => by simp [Path.isBlank_iff.mpr h] at blank
      simp only [if_neg named, if_neg up]
      cases found : Entry.find (.directory entries) [s] with
      | error fault => split <;> simp [error_bind]
      | ok inner =>
          have short := ((tidy.find found).2 s List.mem_cons_self).short
          rw [if_neg (by omega), ok_bind]
          simp

end Follow

section Ends

variable {segments : List String} {s : String}

theorem endsBlank_cons_of_blank (blank : isBlank s = true)
    : (s :: segments).getLast?.any isBlank = true
      ↔ segments = [] ∨ segments.getLast?.any isBlank = true := by
  cases segments <;> simp [blank]

theorem endsBlank_cons_of_name (name : isBlank s = false)
    : (s :: segments).getLast?.any isBlank = segments.getLast?.any isBlank := by
  cases segments with
  | nil => simpa using name
  | cons => rfl

/-- Segments without a name end in what says nothing. -/
theorem endsBlank_of_nameless (nameless : segments.filter (fun s => !isBlank s) = [])
    : segments = [] ∨ segments.getLast?.any isBlank = true := by
  cases final : segments.getLast? with
  | none => exact .inl (List.getLast?_eq_none_iff.mp final)
  | some s =>
      have silent := List.filter_eq_nil_iff.mp nameless s (List.mem_of_getLast? final)
      exact .inr (by simpa using silent)

/-- What says nothing can stand before segments that lead on: behind it there is a name, or the end
has to be a directory. -/
theorem isDirectory_of_segments (found : e.find (segments.filter fun s => !isBlank s) = .ok x)
    (ends : segments = [] ∨ segments.getLast?.any isBlank = true → x.isDirectory = true)
    : e.isDirectory = true := by
  cases named : segments.filter fun s => !isBlank s with
  | cons name names => exact isDirectory_of_find (named ▸ found)
  | nil =>
      rw [named] at found
      cases found
      exact ends (endsBlank_of_nameless named)

end Ends

/-- Where segments of a path lead: what says nothing has to stand in a directory. -/
theorem follow_eq_ok_iff (tidy : e.Tidy) {start stop segments : List String}
    (h : t.root.find start = .ok e) (forward : ".." ∉ segments)
    : t.follow start segments = .ok stop
      ↔ stop = start ++ segments.filter (fun s => !isBlank s)
        ∧ ∃ x, e.find (segments.filter fun s => !isBlank s) = .ok x
          ∧ (segments.getLast?.any isBlank = true → x.isDirectory = true) := by
  induction segments generalizing start e with
  | nil =>
      constructor
      · rintro ⟨⟩
        exact ⟨by simp, e, rfl, by simp⟩
      · rintro ⟨rfl, -⟩
        simp [follow]
  | cons s segments ih =>
      have up : s ≠ ".." := (List.ne_of_not_mem_cons forward).symm
      have rest := List.not_mem_of_not_mem_cons forward
      cases blank : isBlank s with
      | true =>
          rw [follow_blank h blank, ih tidy h rest, endsBlank_cons_of_blank blank,
            List.filter_cons_of_neg (by simp [blank])]
          constructor
          · rintro ⟨directory, stops, x, found, ends⟩
            refine ⟨stops, x, found, ?_⟩
            rintro (rfl | later)
            · cases found
              exact directory
            · exact ends later
          · rintro ⟨stops, x, found, ends⟩
            exact ⟨isDirectory_of_segments found ends, stops, x, found,
              fun later => ends (.inr later)⟩
      | false =>
          have there {inner : Entry} (found : e.find [s] = .ok inner)
              : t.root.find (start ++ [s]) = .ok inner := by
            rw [Entry.find_append, h, ok_bind, found]
          have both (names : List String) : e.find (s :: names) = e.find [s] >>= (·.find names) :=
            Entry.find_append e [s] names
          rw [follow_name h tidy blank up, endsBlank_cons_of_name blank,
            List.filter_cons_of_pos (by simp [blank]), both (segments.filter _),
            List.append_cons start s (segments.filter _)]
          constructor
          · rintro ⟨inner, found, on⟩
            obtain ⟨stops, x, below, ends⟩ := (ih (tidy.find found).1 (there found) rest).mp on
            exact ⟨stops, x, by rw [found, ok_bind, below], ends⟩
          · rintro ⟨stops, x, found, ends⟩
            obtain ⟨inner, first, below⟩ := bind_eq_ok_iff.mp found
            refine ⟨inner, first, ?_⟩
            exact (ih (tidy.find first).1 (there first) rest).mpr ⟨stops, x, below, ends⟩

/-- Where a plain path leads: to what its names lead to, which has to be a directory if the path
ends in what says nothing. -/
theorem find_eq_ok_iff (there : t.root.find t.workdir = .ok e) (tidy : e.Tidy) (plain : p.Plain)
    : t.find p = .ok x
      ↔ p.Spelled ∧ t.at? p.names = .ok x ∧ (p.endsBlank = true → x.isDirectory = true) := by
  have within : t.at? p.names = e.find p.names := by rw [at?, Entry.find_append, there, ok_bind]
  have onward (stop : List String)
      : t.follow t.workdir p.segments = .ok stop ↔ stop = t.workdir ++ p.names
          ∧ ∃ x, e.find p.names = .ok x ∧ (p.endsBlank = true → x.isDirectory = true) :=
    follow_eq_ok_iff tidy there plain.forward
  rw [find, locate_eq, plain.relative, if_neg (by decide)]
  simp only [bind_eq_ok_iff, onward]
  constructor
  · rintro ⟨stop, ⟨_, spelled, rfl, y, found, ends⟩, here⟩
    have same : y = x := by
      exact Except.ok.inj (found.symm.trans (within.symm.trans here))
    subst same
    exact ⟨(spelling_eq_ok_iff (tidy.find found).2).mp spelled, here, ends⟩
  · rintro ⟨spelled, here, ends⟩
    have found := within.symm.trans here
    exact ⟨_, ⟨(), (spelling_eq_ok_iff (tidy.find found).2).mpr spelled, rfl, x, found, ends⟩, here⟩

end FileTree

end Raml
