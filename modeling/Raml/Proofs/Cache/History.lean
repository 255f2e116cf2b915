import Raml.Proofs.Cache.Recall
import Raml.Proofs.Documents.Hooks
import Raml.Proofs.Source.Frame
import Raml.Source.Search

/-! Histories of a cache: files are edited, documents are parsed and stored, and entries are changed
by others, in any order.

Whatever happened before, a document is answered as without a cache, unless there is an entry for
the very bytes that were read.
-/

namespace Raml

variable {cache : Cache} {tree tree' : FileTree} {path : Path} {bytes : Bytes} {d : Document}

-----------------------------------------------------------------------------------------
-- Entries
-----------------------------------------------------------------------------------------

/-- Every document can be restored, whether or not it was parsed. -/
theorem Document.exists_restore (d : Document) (directory : Path)
    : ∃ r, d.restore directory = .ok r := by
  have lasting : (Demands.ofExamples fun _ _ => True).Lasting :=
    Demands.lasting_ofExamples (fun _ _ _ _ => trivial) fun _ _ _ _ _ => trivial
  have carries : Pass.restore.Carries (fun _ => False)
      (Spot.Meets (.ofExamples fun _ _ => True)) (Spot.Meets (.ofExamples fun _ _ => True))
      Pass.restore :=
    Pass.carries_ofHooks lasting fun scope => {
      node := fun _ _ _ _ => Alike.ok fun _ _ => trivial
      properties := fun _ _ => Alike.ok trivial
      annotations := fun _ _ => Alike.ok trivial }
  have run := carries.run .api (d := { d with directory }) fun spot _ =>
    Spot.meets_of_forall (fun _ _ => trivial) (fun _ => trivial) spot
  cases restored : d.restore directory with
  | ok r => exact ⟨r, rfl⟩
  | error e => exact (run.error e restored).elim

namespace Cache

/-- The file for the entry of a document in a file: named by the first half of the digest of its
path. -/
def entryFile (cache : Cache) (path : Path) : Path :=
  cache.directory.join ⟨Bytes.hex ((Sha512.digest (Bytes.ofText path.text)).take 16) ++ ".json"⟩

/-- The file for a path holds an entry that was made from the bytes: their digest stands in it. -/
structure Has (cache : Cache) (tree : FileTree) (path : Path) (bytes : Bytes) (e : Entry) : Prop
    where
  held : ∃ held, tree.read (cache.entryFile path) = .ok held ∧ Entry.ofBytes? held = some e
  fresh : e.contentHash = Bytes.hex (Sha512.digest bytes)

/-- What is loaded is the document of an entry that was made from the bytes. -/
theorem load_eq_some_iff
    : cache.load tree (.of path bytes) = .ok (some d)
      ↔ ∃ e, cache.Has tree path bytes e ∧ e.document = d := by
  have file : cache.entryPath (.of path bytes) = cache.entryFile path := rfl
  constructor
  · intro loaded
    rw [load, file] at loaded
    cases found : tree.read (cache.entryFile path) with
    | error fault => cases fault <;> simp [found] at loaded
    | ok held =>
        simp only [found, Except.ok.injEq] at loaded
        obtain ⟨e, read, fresh⟩ := Option.bind_eq_some_iff.mp loaded
        split at fresh
        · next same => exact ⟨e, ⟨⟨held, found, read⟩, same⟩, Option.some.inj fresh⟩
        · cases fresh
  · rintro ⟨e, ⟨⟨held, found, read⟩, fresh⟩, rfl⟩
    have fresh : e.contentHash = Bytes.hex (Key.of path bytes).content := fresh
    simp [load, file, found, read, fresh]

/-- What a document is stored as, with the digest of the bytes that it was made from. -/
def Holds (cache : Cache) (tree : FileTree) (path : Path) (bytes : Bytes) (time : Int)
    (d : Document) : Prop :=
  tree.read (cache.entryFile path)
    = .ok (Bytes.ofText (Entry.mk (Bytes.hex (Sha512.digest bytes)) time d).toJson.compact)

/-- The file for a path is the only one that differs. -/
def ChangesOnly (cache : Cache) (path : Path) (tree tree' : FileTree) : Prop :=
  ∃ names, tree'.locate (cache.entryFile path) = .ok names ∧ tree.SameFilesBut (some names) tree'

/-- Storing writes the entry, and nothing else. -/
theorem holds_of_store {time : Int} (stored : cache.store tree (.of path bytes) time d = .ok tree')
    : cache.Holds tree' path bytes time d ∧ cache.ChangesOnly path tree tree' := by
  obtain ⟨made, directories, written⟩ := bind_eq_ok_iff.mp stored
  have written := mapError_eq_ok_iff.mp written
  obtain ⟨names, located, same⟩ := FileTree.sameFiles_write written
  have above := FileTree.sameFiles_makeDirectoriesTo (mapError_eq_ok_iff.mp directories)
  exact ⟨FileTree.read_write written, names, located, above.trans same⟩

end Cache

-----------------------------------------------------------------------------------------
-- One parse
-----------------------------------------------------------------------------------------

variable {p : Parser} {time : Int} {answer : Except Error Document}

/-- What parsing through a cache answers and leaves on the disk. -/
inductive Parser.Answers (p : Parser) (cache : Cache) (tree : FileTree) (time : Int) (path : Path)
    : Except Error Document → FileTree → Prop where
  /-- There is an entry for the bytes that were read: its document is restored. -/
  | recalled {bytes : Bytes} {directory : Path} {e : Cache.Entry} {r : Document}
    (read : p.source.readDocument path = .ok (bytes, directory))
    (has : cache.Has tree path bytes e)
    (restored : e.document.restore directory = .ok r)
    : p.Answers cache tree time path (.ok r) tree
  /-- The document cannot be parsed: the disk is left as it was. -/
  | failed {e : Error}
    (missing : ∀ bytes directory e, p.source.readDocument path = .ok (bytes, directory)
      → ¬cache.Has tree path bytes e)
    (same : p.documentFile path = .error e)
    : p.Answers cache tree time path (.error e) tree
  /-- The document is parsed and stored. -/
  | stored {bytes : Bytes} {directory : Path} {d : Document} {tree' : FileTree}
    (read : p.source.readDocument path = .ok (bytes, directory))
    (missing : ∀ e, ¬cache.Has tree path bytes e)
    (same : p.documentFile path = .ok d)
    (stored : cache.store tree (.of path bytes) time d = .ok tree')
    (holds : cache.Holds tree' path bytes time d)
    (only : cache.ChangesOnly path tree tree')
    : p.Answers cache tree time path (.ok d) tree'
  /-- The document is parsed, but cannot be stored. -/
  | unstored {bytes : Bytes} {directory : Path} {d : Document} {e : Error}
    (read : p.source.readDocument path = .ok (bytes, directory))
    (missing : ∀ e, ¬cache.Has tree path bytes e)
    (same : p.documentFile path = .ok d)
    (failed : cache.store tree (.of path bytes) time d = .error e)
    : p.Answers cache tree time path (.ok d) tree

/-- Parsing a file is parsing the bytes read from it. -/
theorem Parser.documentFile_eq {directory : Path}
    (read : p.source.readDocument path = .ok (bytes, directory))
    : p.documentFile path = p.document bytes directory := by
  rw [documentFile, read]
  rfl

/-- Where there is an entry for the bytes, it is restored, and nothing is written. -/
theorem Parser.cachedDocumentFile_of_has {directory : Path} {e : Cache.Entry}
    (read : p.source.readDocument path = .ok (bytes, directory))
    (has : cache.Has tree path bytes e)
    : p.cachedDocumentFile cache tree time path = (e.document.restore directory, tree) := by
  have loaded := Cache.load_eq_some_iff.mpr ⟨e, has, rfl⟩
  simp only [cachedDocumentFile, read, loaded]

/-- Without an entry it does not matter why there is none. -/
theorem Parser.cachedDocumentFile_of_missing {directory : Path}
    (read : p.source.readDocument path = .ok (bytes, directory))
    (missing : ∀ e, ¬cache.Has tree path bytes e)
    : p.cachedDocumentFile cache tree time path
      = (p.documentFile path,
          ((p.documentFile path).toOption.bind fun d =>
            (cache.store tree (.of path bytes) time d).toOption).getD tree) := by
  have loaded : cache.load tree (.of path bytes) = .ok none
      ∨ ∃ e, cache.load tree (.of path bytes) = .error e := by
    cases loaded : cache.load tree (.of path bytes) with
    | error e => exact .inr ⟨e, rfl⟩
    | ok d? =>
        cases d? with
        | none => exact .inl rfl
        | some d =>
            obtain ⟨e, has, -⟩ := Cache.load_eq_some_iff.mp loaded
            exact absurd has (missing e)
  rw [documentFile_eq read, cachedDocumentFile]
  cases parsed : p.document bytes directory with
  | error e =>
      rcases loaded with loaded | ⟨_, loaded⟩ <;> simp [read, loaded, parsed, Except.toOption]
  | ok d =>
      cases stored : cache.store tree (.of path bytes) time d <;>
        rcases loaded with loaded | ⟨_, loaded⟩ <;>
        simp [read, loaded, parsed, stored, Except.toOption]

/-- Every parse through a cache answers one of what is to be expected, whatever the disk holds. -/
theorem Parser.answers_cached (p : Parser) (cache : Cache) (tree : FileTree) (time : Int)
    (path : Path)
    : p.Answers cache tree time path (p.cachedDocumentFile cache tree time path).1
        (p.cachedDocumentFile cache tree time path).2 := by
  cases read : p.source.readDocument path with
  | error e =>
      simp only [cachedDocumentFile, read]
      refine .failed (fun _ _ _ other => ?_) (by rw [documentFile, read]; rfl)
      rw [read] at other
      cases other
  | ok found =>
      obtain ⟨bytes, directory⟩ := found
      by_cases has : ∃ e, cache.Has tree path bytes e
      · obtain ⟨e, has⟩ := has
        obtain ⟨r, restored⟩ := e.document.exists_restore directory
        rw [cachedDocumentFile_of_has read has, restored]
        exact .recalled read has restored
      have missing (e : Cache.Entry) : ¬cache.Has tree path bytes e := fun h => has ⟨e, h⟩
      rw [cachedDocumentFile_of_missing read missing]
      cases same : p.documentFile path with
      | error e =>
          refine .failed (fun bytes' directory' e other => ?_) same
          cases read.symm.trans other
          exact missing e
      | ok d =>
          cases stored : cache.store tree (.of path bytes) time d with
          | error e => simpa [Except.toOption, stored] using .unstored read missing same stored
          | ok tree' =>
              obtain ⟨holds, only⟩ := Cache.holds_of_store stored
              simpa [Except.toOption, stored] using .stored read missing same stored holds only

-----------------------------------------------------------------------------------------
-- Histories
-----------------------------------------------------------------------------------------

/-- The disk that caches are on, and the files that documents are read from. These may be on the same
disk. -/
structure Session where
  source : FileTree → Source
  tree : FileTree

namespace Session

/-- What happens between parses and the parses themselves. -/
inductive Event where
  /-- The files that documents are read from are edited. -/
  | edit (source : FileTree → Source)
  /-- The disk is changed by others: entries are overwritten, removed or blocked. -/
  | change (tree : FileTree)
  /-- A document is stored as it is, under whatever key. -/
  | store (cache : Cache) (key : Cache.Key) (time : Int) (d : Document)
  | parse (settings : Settings) (cache : Cache) (time : Int) (path : Path)

variable {s s' : Session} {events : List Event}

def parser (s : Session) (settings : Settings) : Parser := { settings, source := s.source s.tree }

/-- What an event answers, and the session after it. -/
def next (s : Session) : Event → List (Except Error Document) × Session
  | .edit source => ([], { s with source })
  | .change tree => ([], { s with tree })
  | .store cache key time d =>
      ([], { s with tree := (cache.store s.tree key time d).toOption.getD s.tree })
  | .parse settings cache time path =>
      let (answer, tree) := (s.parser settings).cachedDocumentFile cache s.tree time path
      ([answer], { s with tree })

/-- All answers in order, and the session after the last event. -/
def run : Session → List Event → List (Except Error Document) × Session
  | s, [] => ([], s)
  | s, event :: events =>
      let (answers, s') := s.next event
      let (more, last) := s'.run events
      (answers ++ more, last)

/-- What is to be expected of an event. -/
inductive Allows (s : Session) : Event → List (Except Error Document) → Session → Prop where
  | edit (source : FileTree → Source) : s.Allows (.edit source) [] { s with source }
  | change (tree : FileTree) : s.Allows (.change tree) [] { s with tree }
  | stored {cache : Cache} {key : Cache.Key} {time : Int} {d : Document} {tree : FileTree}
    (stored : cache.store s.tree key time d = .ok tree)
    : s.Allows (.store cache key time d) [] { s with tree }
  | unstored {cache : Cache} {key : Cache.Key} {time : Int} {d : Document} {e : Error}
    (failed : cache.store s.tree key time d = .error e) : s.Allows (.store cache key time d) [] s
  | parsed {settings : Settings} {cache : Cache} {time : Int} {path : Path}
    {answer : Except Error Document} {tree : FileTree}
    (answers : (s.parser settings).Answers cache s.tree time path answer tree)
    : s.Allows (.parse settings cache time path) [answer] { s with tree }

/-- What is to be expected of events, one after the other. -/
inductive Follows : Session → List Event → List (Except Error Document) → Session → Prop where
  | done (s : Session) : Follows s [] [] s
  | next {s s' last : Session} {event : Event} {events : List Event}
    {answers more : List (Except Error Document)} (first : s.Allows event answers s')
    (rest : Follows s' events more last) : Follows s (event :: events) (answers ++ more) last

/-- Every event does what is to be expected of it, in any session. -/
theorem allows_next (s : Session) (event : Event)
    : s.Allows event (s.next event).1 (s.next event).2 := by
  cases event with
  | edit source => exact .edit source
  | change tree => exact .change tree
  | store cache key time d =>
      rw [next]
      cases stored : cache.store s.tree key time d with
      | error e => exact .unstored stored
      | ok tree => exact .stored stored
  | parse settings cache time path =>
      exact .parsed ((s.parser settings).answers_cached cache s.tree time path)

/-- Whatever happens and in which order, each parse answers as it would without a cache, or with the
document of an entry for the bytes that it read. -/
theorem follows_run (s : Session) (events : List Event)
    : s.Follows events (s.run events).1 (s.run events).2 := by
  induction events generalizing s with
  | nil => exact .done s
  | cons event events ih => exact .next (s.allows_next event) (ih (s.next event).2)

end Session

end Raml
