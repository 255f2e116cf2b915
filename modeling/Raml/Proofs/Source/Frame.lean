import Raml.Proofs.Source.Tree

/-! What writing leaves alone: every file but the one that is written.

Directories that are made on the way hold no files.
-/

namespace Raml

namespace Entry

variable {e : Entry} {names path : List String} {bytes : Bytes}

/-- What the file holds that names lead to, if there is one. -/
def fileAt? (e : Entry) (names : List String) : Option Bytes :=
  match e.find names with
  | .ok (.file bytes) => some bytes
  | _ => none

/-- The entries of a directory, each with what is below it. -/
theorem fileAt?_cons (entries : List (String × Entry)) (name : String) (path : List String)
    : (directory entries).fileAt? (name :: path)
      = (Keyed.get? entries name).bind (·.fileAt? path) := by
  rw [fileAt?, find]
  cases Keyed.get? entries name <;> rfl

theorem fileAt?_nil (path : List String) : (directory []).fileAt? path = none := by
  cases path <;> rfl

/-- In an empty directory there is nothing but the file that is put there. -/
theorem fileAt?_put_nil (bytes : Bytes) (names path : List String)
    : (put (.file bytes) names (.directory [])).fileAt? path
      = if path = names then some bytes else none := by
  induction names generalizing path with
  | nil => cases path <;> rfl
  | cons name names ih =>
      cases path with
      | nil => rfl
      | cons first path =>
          simp only [put, Keyed.get?_nil, Option.getD_none, Keyed.insert, fileAt?_cons,
            Keyed.get?_cons]
          by_cases same : name = first
          · subst same
            simp [ih]
          · simp [same, Ne.symm same]

/-- Where a file may be put, it is put, and every other file is as it was. -/
theorem fileAt?_put (bytes : Bytes) (free : e.Free names) (path : List String)
    : (put (.file bytes) names e).fileAt? path
      = if path = names then some bytes else e.fileAt? path := by
  induction names generalizing e path with
  | nil =>
      rcases free with ⟨old, same⟩ | missing
      · cases same
        cases path <;> rfl
      · cases missing
  | cons name names ih =>
      cases e with
      | file old => rcases free with ⟨_, h⟩ | h <;> cases h
      | directory entries =>
          cases path with
          | nil => rfl
          | cons first path =>
              simp only [put, fileAt?_cons, Keyed.get?_insert]
              by_cases same : name = first
              · subst same
                cases inner : Keyed.get? entries name with
                | none => simp [fileAt?_put_nil]
                | some old =>
                    have within : old.Free names := by simpa [Free, find, inner] using free
                    simp [ih within]
              · simp [same, Ne.symm same]

/-- A directory that is put where nothing is adds no files. -/
theorem fileAt?_put_directory (missing : e.find names = .error .noEntry) (path : List String)
    : (put (.directory []) names e).fileAt? path = e.fileAt? path := by
  induction names generalizing e path with
  | nil => cases missing
  | cons name names ih =>
      cases e with
      | file old => cases missing
      | directory entries =>
          cases path with
          | nil => rfl
          | cons first path =>
              simp only [put, fileAt?_cons, Keyed.get?_insert]
              by_cases same : name = first
              · subst same
                cases inner : Keyed.get? entries name with
                | some old => simp [ih (e := old) (by simpa [find, inner] using missing)]
                | none =>
                    cases names with
                    | nil => simp [put, fileAt?_nil]
                    | cons next names => simp [ih (e := .directory []) rfl, fileAt?_nil]
              · simp [same]

/-- In a directory a name leads to an entry or to nothing. -/
theorem find_concat {entries : List (String × Entry)} (h : e.find names = .ok (.directory entries))
    (name : String)
    : e.find (names ++ [name])
      = match Keyed.get? entries name with
        | some inner => .ok inner
        | none => .error .noEntry := by
  induction names generalizing e with
  | nil =>
      cases h
      rw [List.nil_append, find]
      cases Keyed.get? entries name <;> rfl
  | cons first names ih =>
      cases e with
      | file bytes => cases h
      | directory files =>
          rw [List.cons_append, find]
          cases inner : Keyed.get? files first with
          | none => simp [find, inner] at h
          | some old => exact ih (by simpa [find, inner] using h)

end Entry

namespace FileTree

variable {t t' : FileTree} {path : Path} {bytes : Bytes}

/-- The files of two trees are the same, but for what names lead to. -/
def SameFilesBut (names : Option (List String)) (t t' : FileTree) : Prop :=
  ∀ other, some other ≠ names → t'.root.fileAt? other = t.root.fileAt? other

/-- A new directory leaves all files as they are. -/
theorem sameFiles_makeDirectory (h : t.makeDirectory path = .ok t') : t.SameFilesBut none t' := by
  intro other _
  unfold makeDirectory at h
  split at h
  · cases h
  · obtain ⟨names, place, h⟩ := bind_eq_ok_iff.mp h
    split at h
    · cases h
    next vacant =>
    split at h
    · cases h
      obtain ⟨above, name, -, -, entries, rfl, -, -, -, there⟩ := newPlace_eq place
      refine Entry.fileAt?_put_directory ?_ other
      have found := Entry.find_concat there name
      cases inner : Keyed.get? entries name with
      | none => simpa [inner] using found
      | some e => simp [found, inner, Except.toOption] at vacant
    · cases h

/-- Files stay as they are in two steps, but for the one that the second step is about. -/
theorem SameFilesBut.trans {names : Option (List String)} {t'' : FileTree}
    (first : t.SameFilesBut none t') (second : t'.SameFilesBut names t'')
    : t.SameFilesBut names t'' :=
  fun other elsewhere => (second other elsewhere).trans (first other nofun)

/-- By induction on how many directories have to be made at most. -/
theorem sameFiles_makeDirectoriesTo {depth : Nat}
    (h : t.makeDirectoriesTo depth path = .ok t')
    : t.SameFilesBut none t' := by
  induction depth generalizing path t' with
  | zero =>
      unfold makeDirectoriesTo at h
      split at h
      · cases h
        exact fun _ _ => rfl
      split at h
      · next made =>
          cases h
          exact sameFiles_makeDirectory made
      · cases h
      · split at h
        · cases h
          exact fun _ _ => rfl
        · cases h
  | succ depth ih =>
      unfold makeDirectoriesTo at h
      split at h
      · cases h
        exact fun _ _ => rfl
      split at h
      · next made =>
          cases h
          exact sameFiles_makeDirectory made
      · split at h
        · next above _ =>
            cases ‹depth + 1 = _›
            obtain ⟨between, made, h⟩ := bind_eq_ok_iff.mp h
            split at h
            · cases h
              exact ih made
            · exact (ih made).trans (sameFiles_makeDirectory h)
        · cases h
      · split at h
        · cases h
          exact fun _ _ => rfl
        · cases h

/-- A path leads to the file that was written, and all other files are as they were. -/
theorem sameFiles_write (h : t.write path bytes = .ok t')
    : ∃ names, t'.locate path = .ok names ∧ t.SameFilesBut (some names) t' := by
  obtain ⟨names, free, rfl, located⟩ := exists_of_write h
  refine ⟨names, located, fun other elsewhere => ?_⟩
  have apart : other ≠ names := fun same => elsewhere (congrArg some same)
  rw [putFile, Entry.fileAt?_put bytes free, if_neg apart]

end FileTree

end Raml
