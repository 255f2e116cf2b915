import Raml.Cache
import Raml.Proofs.Cache.Reading
import Raml.Proofs.Cache.Restoring
import Raml.Proofs.Cache.Written
import Raml.Proofs.Documents.Completed
import Raml.Proofs.Source.Tree

/-! What a cache holds of a document that was stored in it, and documents that it recalls: they were
parsed and stored, and are loaded and restored.
-/

namespace Raml

-----------------------------------------------------------------------------------------
-- Entries
-----------------------------------------------------------------------------------------

namespace Cache

open Form Form.Fields Json

variable {e : Entry} {d s : Document} {cache : Cache} {tree tree' : FileTree} {key : Key}

/-- An entry is read to the last member if the document in it is sound. -/
theorem Entry.storable_toJson (sound : ∀ entry ∈ e.document.leaves, entry.2.Sound)
    (word : IsWord e.cachedAt)
    : e.toJson.Storable .entry := by
  refine storable_obj (List.forall_mem_cons.mpr ⟨?_, List.forall_mem_cons.mpr ⟨?_,
    List.forall_mem_singleton.mpr ?_⟩⟩)
  · exact .of_has ⟨rfl, by decide⟩ (storable_str e.contentHash)
  · exact .of_has ⟨rfl, by decide⟩ (storable_int word)
  · exact .of_has ⟨rfl, by decide⟩ (Document.storable_toJson sound)

/-- What is read of an entry that was written. -/
def Entry.recovered? (e : Entry) : Option Entry := ofBytes? (Bytes.ofText e.toJson.compact)

/-- An entry is read, if at all, with the copy of its document. -/
theorem Entry.read_toJson {e' : Entry} (sound : ∀ entry ∈ e.document.leaves, entry.2.Sound)
    (ok : Entry.read e.toJson = some e')
    : e'.document = e.document.copy .stored := by
  rw [Entry.read, toJson, fieldsOrItems?_obj] at ok
  obtain ⟨f, found, held⟩ := exists_fields? [("contentHash", .str e.contentHash),
    ("cachedAt", .int e.cachedAt), ("document", e.document.toJson)]
  obtain ⟨⟨_, _⟩, document, rfl⟩ := single?_of_held ((held "document").trans rfl)
  simp only [found, document, Option.map_some, Option.bind_eq_bind, Option.bind_some,
    Option.bind_eq_some_iff] at ok
  obtain ⟨_, -, _, -, _, -, _, -, _, -, _, -, _, read, same⟩ := ok
  cases same
  exact Document.read_toJson sound read

/-- What a cache has for a key is what was just stored for it, as far as that can be read. -/
theorem load_store {time : Int} (stored : cache.store tree key time d = .ok tree')
    : cache.load tree' key
      = .ok (((Entry.mk (Bytes.hex key.content) time d).recovered?.filter
          (·.contentHash = Bytes.hex key.content)).map Entry.document) := by
  obtain ⟨made, -, written⟩ := bind_eq_ok_iff.mp stored
  rw [load, FileTree.read_write (mapError_eq_ok_iff.mp written)]
  simp only [Entry.recovered?]
  cases Entry.ofBytes? (Bytes.ofText (Entry.toJson ⟨_, time, d⟩).compact) with
  | none => rfl
  | some e => by_cases same : e.contentHash = Bytes.hex key.content <;> simp [Option.filter, same]

/-- What is to be stored does not decide whether it can be. -/
theorem exists_store {time : Int} (stored : cache.store tree key time d = .ok tree') (time' : Int)
    (d' : Document)
    : ∃ tree', cache.store tree key time' d' = .ok tree' := by
  obtain ⟨made, there, written⟩ := bind_eq_ok_iff.mp stored
  obtain ⟨tree', again⟩ := FileTree.exists_write (mapError_eq_ok_iff.mp written) _
  exact ⟨tree', bind_eq_ok_iff.mpr ⟨made, there, mapError_eq_ok_iff.mpr again⟩⟩

/-- What a cache has of a document that was just stored is a copy of it. -/
theorem eq_of_load_store {time : Int64} (sound : ∀ entry ∈ d.leaves, entry.2.Sound)
    (floats : ∀ x ∈ d.toJson.floats, ReadsBack x)
    (stored : cache.store tree key time.toInt d = .ok tree')
    (loaded : cache.load tree' key = .ok (some s))
    : s = d.copy .stored := by
  let entry : Entry := ⟨Bytes.hex key.content, time.toInt, d⟩
  rw [load_store stored] at loaded
  obtain ⟨e, recovered, rfl⟩ := Option.map_eq_some_iff.mp (Except.ok.inj loaded)
  obtain ⟨recovered, -⟩ := Option.filter_eq_some_iff.mp recovered
  obtain ⟨j, text, readEntry⟩ := Option.bind_eq_some_iff.mp recovered
  have word : IsWord entry.cachedAt := Or.inl (by rw [int64?_eq_some_iff.mpr rfl]; rfl)
  have storable := Entry.storable_toJson (e := entry) sound word
  have numbers : ∀ x ∈ entry.toJson.floats, ReadsBack x := by
    simpa [Entry.toJson, Json.floats, memberFloats, entry] using floats
  cases eq_of_readParts Form.Part.entry storable.within numbers storable.words (ok_of_toOption text)
  exact Entry.read_toJson (e := entry) sound readEntry

end Cache

-----------------------------------------------------------------------------------------
-- Documents that are recalled
-----------------------------------------------------------------------------------------

namespace Parser

open Json (ReadsBack)

/-- The document `d` is parsed and stored, and `s` is loaded for the same key. -/
inductive Recalls (p : Parser) (d s : Document) : Prop where
  | intro {target : Target} {mediaTypes : Option (List String)} {d₀ : Document} {cache : Cache}
    {tree tree' : FileTree} {key : Cache.Key} {time : Int64} (written : d₀.Written)
    (parsed : p.resolve target mediaTypes d₀ = .ok d)
    (stored : cache.store tree key time.toInt d = .ok tree')
    (loaded : cache.load tree' key = .ok (some s))
    : Recalls p d s

variable {p : Parser} {d s : Document}

namespace Recalls

/-- A document that is recalled was completed when it was parsed. -/
theorem complete (h : p.Recalls d s) : Rules.completed.All d.allLeaves := by
  obtain ⟨written, parsed, -, -⟩ := h
  exact complete_of_resolve written parsed

/-- What is restored is the copy of the document that was stored. -/
theorem restore_eq (h : p.Recalls d s) (floats : ∀ x ∈ d.toJson.floats, ReadsBack x)
    (directory : Path)
    : s.restore directory = .ok { d.copy .restored with directory } := by
  have sound (entry) (member : entry ∈ d.leaves) : entry.2.Sound :=
    h.complete.sound _ (List.mem_map_of_mem member)
  obtain ⟨-, -, stored, loaded⟩ := h
  rw [Cache.eq_of_load_store sound floats stored loaded]
  exact d.restore_copy directory

/-- What is loaded can be restored, and has the places that were there. What is written of it
differs only by what is null. -/
theorem exists_restored (h : p.Recalls d s) (floats : ∀ x ∈ d.toJson.floats, ReadsBack x)
    (directory : Path)
    : ∃ r, s.restore directory = .ok r ∧ r.leaves = d.leaves.map CopyingIn.restored.leaf
        ∧ Json.Omits (Leaf.nulls d.allLeaves) r.toJson d.toJson :=
  ⟨_, h.restore_eq floats directory, d.leaves_copy .restored, d.omits_restored directory⟩

end Recalls

-----------------------------------------------------------------------------------------
-- Documents that nodes spell
-----------------------------------------------------------------------------------------

/-- The document that a node spells and what a cache has for it, if its entry can be read. -/
def recalled? (p : Parser) (node : Yaml.Node) : Option (Document × Document) := do
  let d₀ ← (Decode.document node).toOption
  let d ← (p.resolve .api (some d₀.mediaType) d₀).toOption
  let e ← (Cache.Entry.mk "" 0 d).recovered?
  if e.contentHash = "" then some (d, e.document) else none

/-- What is computed has been parsed, stored and loaded. -/
theorem recalls_of_recalled? {node : Yaml.Node} (h : p.recalled? node = some (d, s))
    : p.Recalls d s := by
  obtain ⟨d₀, decoded, h⟩ := Option.bind_eq_some_iff.mp h
  obtain ⟨_, parsed, h⟩ := Option.bind_eq_some_iff.mp h
  obtain ⟨e, recovered, h⟩ := Option.bind_eq_some_iff.mp h
  split at h
  · next same =>
      cases h
      -- Any place will do where an entry can be written.
      have place : ((Cache.mk ⟨"cache"⟩).store (.empty []) ⟨[], []⟩ 0 {}).toOption.isSome = true := by
        decide +kernel
      obtain ⟨_, place⟩ := Option.isSome_iff_exists.mp place
      obtain ⟨tree', stored⟩ := Cache.exists_store (ok_of_toOption place) (Int64.toInt 0) d
      refine ⟨.document (ok_of_toOption decoded) d₀.directory, ok_of_toOption parsed, stored, ?_⟩
      have empty : Bytes.hex [] = "" := rfl
      simp [Cache.load_store stored, empty, recovered, same, Option.filter]
  · cases h

/-- What a cache has for the document that a node spells, with its entry written byte by byte. -/
def recalledBytes? (p : Parser) (node : Yaml.Node) : Option (Document × Document) := do
  let d₀ ← (Decode.document node).toOption
  let d ← (p.resolve .api (some d₀.mediaType) d₀).toOption
  let e ← Cache.Entry.ofBytes? (Cache.Entry.mk "" 0 d).toJson.bytes
  if e.contentHash = "" then some (d, e.document) else none

/-- It makes no difference to go through bytes, or to leave that out when computing. -/
theorem recalledBytes?_eq (p : Parser) (node : Yaml.Node)
    : p.recalledBytes? node = p.recalled? node := by
  simp only [recalledBytes?, recalled?, Cache.Entry.recovered?, Json.bytes_eq]

/-- The document that a node spells is recalled, and a check of it succeeds. -/
theorem exists_recalls (node : Yaml.Node) (check : Document → Bool)
    (h : (p.recalledBytes? node).any (fun (d, _) => check d) = true)
    : ∃ d s, p.recalled? node = some (d, s) ∧ p.Recalls d s ∧ check d = true := by
  rw [recalledBytes?_eq] at h
  obtain ⟨⟨d, s⟩, recalled, checked⟩ := (Option.any_eq_true _ _).mp h
  exact ⟨d, s, recalled, recalls_of_recalled? recalled, checked⟩

end Parser

end Raml
