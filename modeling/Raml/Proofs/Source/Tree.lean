import Mathlib.Data.List.TakeWhile
import Raml.Proofs.Guarantee
import Raml.Source.Tree

/-! A file that was written can be read again: paths lead where they led before, past the new file.
-/

namespace Raml

namespace Entry

variable {e e' x : Entry} {names path : List String} {name : String} {bytes : Bytes}

/-- What is put at a place is found there. -/
theorem find_put (new : Entry) (names : List String) (e : Entry)
    : (put new names e).find names = .ok new := by
  induction names generalizing e with
  | nil => cases new <;> rfl
  | cons name names ih =>
      cases e with
      | file bytes => simp [put, find, ih]
      | directory entries => simp [put, find, Keyed.get?_insert, ih]

/-- Above what was put somewhere there are directories. -/
theorem find_put_above (new : Entry) (above : List String) (name : String) (below : List String)
    (e : Entry)
    : ∃ entries, (put new (above ++ name :: below) e).find above = .ok (.directory entries) := by
  induction above generalizing e with
  | nil => cases e <;> exact ⟨_, rfl⟩
  | cons first above ih =>
      cases e with
      | file bytes =>
          obtain ⟨entries, found⟩ := ih (.directory [])
          exact ⟨entries, by simp [put, find, found]⟩
      | directory files =>
          obtain ⟨entries, found⟩ := ih ((Keyed.get? files first).getD (.directory []))
          exact ⟨entries, by simp [put, find, Keyed.get?_insert, found]⟩

/-- Above a directory there is a directory. -/
theorem find_dropLast {entries : List (String × Entry)} (h : e.find names = .ok (.directory entries))
    : ∃ entries, e.find names.dropLast = .ok (.directory entries) := by
  induction names generalizing e with
  | nil => exact ⟨entries, h⟩
  | cons name names ih =>
      cases e with
      | file bytes => cases h
      | directory files =>
          cases names with
          | nil => exact ⟨files, rfl⟩
          | cons next names =>
              cases inner : Keyed.get? files name with
              | none => simp [find, inner] at h
              | some e =>
                  rw [List.dropLast_cons_cons, find, inner]
                  exact ih (by simpa only [find, inner] using h)

/-- Names lead to a file, or to nothing in a directory. -/
def Free (names : List String) (e : Entry) : Prop :=
  (∃ bytes, e.find names = .ok (.file bytes)) ∨ e.find names = .error .noEntry

/-- What was there before is there still, and is a directory if it was one. -/
theorem find_put_of_free (bytes : Bytes) (free : e.Free names) (found : e.find path = .ok x)
    : ∃ y, (put (.file bytes) names e).find path = .ok y ∧ y.isDirectory = x.isDirectory := by
  induction names generalizing e path with
  | nil =>
      rcases free with ⟨old, same⟩ | missing
      · cases same
        cases path with
        | nil =>
            cases found
            exact ⟨_, rfl, rfl⟩
        | cons => cases found
      · cases missing
  | cons name names ih =>
      cases e with
      | file old => rcases free with ⟨_, h⟩ | h <;> cases h
      | directory entries =>
          cases path with
          | nil =>
              cases found
              exact ⟨_, rfl, rfl⟩
          | cons first path =>
              simp only [put, find, Keyed.get?_insert]
              by_cases same : name = first
              · subst same
                rw [if_pos rfl]
                cases inner : Keyed.get? entries name with
                | none => simp [find, inner] at found
                | some old =>
                    refine ih ?_ (by simpa [find, inner] using found)
                    simpa [Free, find, inner] using free
              · rw [if_neg same]
                exact ⟨x, found, rfl⟩

end Entry

namespace Path

/-- A path is its segments with slashes between them. -/
theorem intercalate_segments (p : Path) : "/".intercalate p.segments = p.text := by
  rw [← String.toList_inj, String.toList_intercalate, segments, List.map_map]
  simp [Function.comp_def, List.intercalate_splitOn]

/-- A path ends in a slash if nothing is its last part, behind others. -/
theorem endsWith_of_segments {p : Path} {leading : List String} (some : leading ≠ [])
    (h : p.segments = leading ++ [""])
    : p.text.endsWith "/" = true := by
  rw [← p.intercalate_segments, h, String.intercalate_append_of_ne_nil some (List.cons_ne_nil _ _),
    String.endsWith]
  exact String.Slice.endsWith_string_iff.mpr (by simp)

end Path

namespace FileTree

variable {t t' : FileTree} {path : Path} {bytes found : Bytes} {names start : List String}
variable {fault : FileFault}

/-- The tree with a file put where names lead. -/
def putFile (t : FileTree) (names : List String) (bytes : Bytes) : FileTree :=
  { t with root := Entry.put (.file bytes) names t.root }

/-- The step from one segment of a path to the next. -/
def enterFrom (t : FileTree) (names : List String) (segment : String)
    : Except FileFault (List String) := do
  match ← t.root.find names with
  | .file _ => .error .notDirectory
  | .directory _ =>
      if segment = "" ∨ segment = "." then .ok names
      else if segment = ".." then .ok names.dropLast
      else if longestName < segment.utf8ByteSize then .error .nameTooLong
      else
        let _ ← t.root.find (names ++ [segment])
        .ok (names ++ [segment])

theorem follow_cons (names : List String) (segment : String) (rest : List String)
    : t.follow names (segment :: rest) = t.enterFrom names segment >>= (t.follow · rest) := by
  rw [follow, enterFrom]
  cases t.root.find names with
  | error fault => rfl
  | ok e =>
      cases e with
      | file => rfl
      | directory entries =>
          simp only [ok_bind]
          repeat' split
          · rfl
          · rfl
          · rfl
          · cases t.root.find (names ++ [segment]) <;> rfl

/-- Segments are followed in turn. -/
theorem follow_append (names first rest : List String)
    : t.follow names (first ++ rest) = t.follow names first >>= (t.follow · rest) := by
  induction first generalizing names with
  | nil => rfl
  | cons segment first ih =>
      rw [List.cons_append, follow_cons, follow_cons, bind_assoc]
      exact congrArg _ (funext fun names => ih names)

/-- A path that leads somewhere leads there also past a new file. -/
theorem follow_putFile {segments stop : List String} (bytes : Bytes) (free : t.root.Free names)
    (h : t.follow start segments = .ok stop)
    : (t.putFile names bytes).follow start segments = .ok stop := by
  induction segments generalizing start with
  | nil => exact h
  | cons segment segments ih =>
      rw [follow_cons] at h ⊢
      obtain ⟨next, step, h⟩ := bind_eq_ok_iff.mp h
      have later := ih h
      have same : (t.putFile names bytes).enterFrom start segment = .ok next := by
        unfold enterFrom at step ⊢
        obtain ⟨e, found, step⟩ := bind_eq_ok_iff.mp step
        obtain ⟨e', there, kind⟩ := Entry.find_put_of_free bytes free found
        rw [putFile, there, ok_bind]
        cases e with
        | file => cases step
        | directory entries =>
            cases e' with
            | file => cases kind
            | directory entries' =>
                simp only at step ⊢
                split at step
                · next h => rw [if_pos h]; exact step
                split at step
                · next h h' => rw [if_neg h, if_pos h']; exact step
                split at step
                · cases step
                · next h h' h'' =>
                    obtain ⟨inner, found, step⟩ := bind_eq_ok_iff.mp step
                    obtain ⟨_, there, -⟩ := Entry.find_put_of_free bytes free found
                    rw [if_neg h, if_neg h', if_neg h'', there, ok_bind]
                    exact step
      rw [same, ok_bind]
      exact later

/-- What is read behind names that a path leads to. -/
theorem read_of_locate (located : t.locate path = .ok names)
    (h : t.root.find names = .ok (.file bytes))
    : t.read path = .ok bytes := by
  rw [read, find, located, ok_bind, h, ok_bind]

theorem locate_eq (t : FileTree) (path : Path)
    : t.locate path
      = spelling path >>= fun _ =>
          t.follow (if path.isAbsolute then [] else t.workdir) path.segments := rfl

/-- The last part of a path that has a place for a new file; what follows it says nothing. -/
theorem segments_eq {name : String} {above : List String}
    (h : path.segments.reverse.dropWhile (· = "") = name :: above)
    : ∃ blanks, (∀ s ∈ blanks, s = "") ∧ path.segments = above.reverse ++ name :: blanks := by
  have parts := List.takeWhile_append_dropWhile (p := (· = "")) (l := path.segments.reverse)
  rw [h] at parts
  have whole := congrArg List.reverse parts
  rw [List.reverse_reverse] at whole
  refine ⟨(path.segments.reverse.takeWhile (· = "")).reverse, fun s member => ?_, ?_⟩
  · simpa using List.mem_takeWhile_imp (List.mem_reverse.mp member)
  · exact whole.symm.trans (by simp)

/-- Parts that say nothing lead nowhere else from a directory. -/
theorem follow_blanks {entries : List (String × Entry)} {blanks : List String}
    (blank : ∀ s ∈ blanks, s = "") (h : t.root.find names = .ok (.directory entries))
    : t.follow names blanks = .ok names := by
  induction blanks with
  | nil => rfl
  | cons s blanks ih =>
      obtain ⟨rfl, others⟩ := List.forall_mem_cons.mp blank
      rw [follow_cons, enterFrom, h, ok_bind]
      exact ih others

/-- Where a path leads to nothing in a directory that is there, its last part is the name of what
is not there. -/
theorem enter_missing {entries : List (String × Entry)} {name : String} {blanks : List String}
    (h : t.root.find names = .ok (.directory entries))
    (blank : ∀ s ∈ blanks, s = "") (missing : t.follow names (name :: blanks) = .error .noEntry)
    : t.root.find (names ++ [name]) = .error .noEntry
      ∧ ∀ t' : FileTree, (∃ entries, t'.root.find names = .ok (.directory entries)) →
          (∃ e, t'.root.find (names ++ [name]) = .ok e) →
          t'.enterFrom names name = .ok (names ++ [name]) := by
  rw [follow_cons, enterFrom, h, ok_bind] at missing
  simp only at missing
  split at missing
  · rw [ok_bind, follow_blanks blank h] at missing
    cases missing
  split at missing
  · obtain ⟨_, above⟩ := Entry.find_dropLast h
    rw [ok_bind, follow_blanks blank above] at missing
    cases missing
  split at missing
  · cases missing
  · next plain up short =>
      refine ⟨?_, ?_⟩
      · cases found : t.root.find (names ++ [name]) with
        | error fault =>
            rw [found, error_bind, error_bind] at missing
            cases missing
            rfl
        | ok e =>
            rw [found] at missing
            simp only [ok_bind] at missing
            cases e with
            | directory entries =>
                rw [follow_blanks blank found] at missing
                cases missing
            | file bytes =>
                cases blanks with
                | nil => cases missing
                | cons s blanks =>
                    rw [follow_cons, enterFrom, found] at missing
                    cases missing
      · rintro t' ⟨_, there⟩ ⟨_, new⟩
        rw [enterFrom, there, ok_bind]
        simp only [if_neg plain, if_neg up, if_neg short, new, ok_bind]

/-- The place for something new is in a directory that is there, and it has a name. -/
theorem newPlace_eq (h : t.newPlace path = .ok names)
    : ∃ above name leading blanks entries, names = above ++ [name] ∧ (∀ s ∈ blanks, s = "")
        ∧ path.segments = leading ++ name :: blanks
        ∧ t.follow (if path.isAbsolute then [] else t.workdir) leading = .ok above
        ∧ t.root.find above = .ok (.directory entries) := by
  obtain ⟨_, -, h⟩ := bind_eq_ok_iff.mp h
  split at h
  · cases h
  · next name leading last =>
      obtain ⟨above, reaches, h⟩ := bind_eq_ok_iff.mp h
      obtain ⟨e, there, h⟩ := bind_eq_ok_iff.mp h
      cases e with
      | file => cases h
      | directory entries =>
          obtain ⟨blanks, blank, split⟩ := segments_eq last
          exact ⟨above, name, _, blanks, entries, (Except.ok.inj h).symm, blank, split, reaches,
            there⟩

/-- A path that leads to nothing leads to the new file in its place, unless it ends like that of a
directory. -/
theorem follow_putFile_new {names : List String} (place : t.newPlace path = .ok names)
    (failed : t.locate path = .error .noEntry) (plain : ¬path.text.endsWith "/" = true)
    (bytes : Bytes)
    : t.root.Free names
      ∧ (t.putFile names bytes).follow (if path.isAbsolute then [] else t.workdir) path.segments
        = .ok names := by
  obtain ⟨_, spelled, -⟩ := bind_eq_ok_iff.mp place
  obtain ⟨above, name, leading, blanks, entries, rfl, blank, split, reaches, there⟩ :=
    newPlace_eq place
  rw [locate_eq, spelled, ok_bind, split, follow_append, reaches, ok_bind] at failed
  obtain ⟨none, steps⟩ := enter_missing there blank failed
  refine ⟨.inr none, ?_⟩
  have again := follow_putFile bytes (.inr none) reaches
  have step := steps (t.putFile (above ++ [name]) bytes)
    (Entry.find_put_above _ above name [] _) ⟨_, Entry.find_put _ _ _⟩
  rw [split, follow_append, again, ok_bind, follow_cons, step, ok_bind]
  rcases List.eq_nil_or_concat blanks with rfl | ⟨front, last, rfl⟩
  · rfl
  · obtain rfl := blank last (by simp)
    have last : path.segments = (leading ++ name :: front) ++ [""] := by simp [split]
    exact absurd (Path.endsWith_of_segments (by simp) last) plain

/-- A file is written in place of another one, or where nothing was, and the path leads to it. -/
theorem exists_of_write (h : t.write path bytes = .ok t')
    : ∃ names, t.root.Free names ∧ t' = t.putFile names bytes ∧ t'.locate path = .ok names := by
  -- It is enough that the path leads to the new file.
  have finish (names : List String) (free : t.root.Free names)
      (spelled : spelling path = .ok ())
      (leads : (t.putFile names bytes).follow (if path.isAbsolute then [] else t.workdir)
        path.segments = .ok names)
      (same : t' = t.putFile names bytes)
      : ∃ names, t.root.Free names ∧ t' = t.putFile names bytes ∧ t'.locate path = .ok names := by
    refine ⟨names, free, same, ?_⟩
    subst same
    rw [locate_eq, spelled]
    exact leads
  unfold write at h
  split at h
  · next names located =>
      obtain ⟨e, there, h⟩ := bind_eq_ok_iff.mp h
      cases e with
      | directory entries => cases h
      | file old =>
          obtain ⟨_, spelled, located⟩ := bind_eq_ok_iff.mp (locate_eq t path ▸ located)
          exact finish names (.inl ⟨old, there⟩) spelled
            (follow_putFile bytes (.inl ⟨old, there⟩) located) (Except.ok.inj h).symm
  · next fault failed =>
      obtain ⟨names, place, written⟩ := bind_eq_ok_iff.mp h
      split at written
      · cases written
      next plain =>
      split at written
      · next missing =>
          subst missing
          obtain ⟨_, spelled, -⟩ := bind_eq_ok_iff.mp place
          obtain ⟨free, leads⟩ := follow_putFile_new place failed plain bytes
          exact finish names free spelled leads (Except.ok.inj written).symm
      · cases written

/-- A file that was written can be read, and holds what was written. -/
theorem read_write (h : t.write path bytes = .ok t') : t'.read path = .ok bytes := by
  obtain ⟨names, -, rfl, located⟩ := exists_of_write h
  exact read_of_locate located (Entry.find_put _ names _)

/-- What a file is to hold does not decide whether it can be written. -/
theorem exists_write (h : t.write path bytes = .ok t') (other : Bytes)
    : ∃ t'', t.write path other = .ok t'' := by
  unfold write at h ⊢
  cases located : t.locate path with
  | ok names =>
      obtain ⟨e, there, h⟩ := bind_eq_ok_iff.mp (located ▸ h)
      cases e with
      | file old => exact ⟨_, bind_eq_ok_iff.mpr ⟨_, there, rfl⟩⟩
      | directory entries => cases h
  | error fault =>
      obtain ⟨names, place, h⟩ := bind_eq_ok_iff.mp (located ▸ h)
      split at h
      · cases h
      next plain =>
      split at h
      · next missing =>
          exact ⟨_, bind_eq_ok_iff.mpr ⟨_, place, by rw [if_neg plain, if_pos missing]⟩⟩
      · cases h

end FileTree

end Raml
