import Raml.Pass.Normalize
import Raml.Proofs.Collections
import Raml.Proofs.Documents.Reshaped
import Raml.Proofs.Resolution.Libraries

/-! Bodies that are declared without a media type.

Such a body is put under each of the default media types of the document that its table does not
declare itself. A document that has no default media types must not have such a body anywhere.
-/

namespace Raml

/-- Each missing name is counted once, however often it is listed. -/
theorem Keyed.nodup_missingNames {α : Type} (m : Keyed α) (names : List String)
    : (m.missingNames names).Nodup :=
  nodup_eraseDups _

-----------------------------------------------------------------------------------------
-- One table
-----------------------------------------------------------------------------------------

namespace Bodies

variable {names : List String} {bodies : Bodies}

/-- Some body is declared without a media type. -/
def Bare (bodies : Bodies) : Prop := "" ∈ Keyed.keys bodies

/-- The bodies that have a media type. -/
def dressed (bodies : Bodies) : Bodies := bodies.filter fun entry => entry.1 ≠ ""

theorem mem_dressed_iff {entry : String × TypeNode}
    : entry ∈ bodies.dressed ↔ entry ∈ bodies ∧ entry.1 ≠ "" := by
  rw [dressed, List.mem_filter, decide_eq_true_iff]

theorem mem_keys_dressed_iff {name : String}
    : name ∈ Keyed.keys bodies.dressed ↔ name ∈ Keyed.keys bodies ∧ name ≠ "" := by
  simp only [Keyed.keys, List.mem_map, mem_dressed_iff]
  constructor
  · rintro ⟨entry, ⟨member, named⟩, rfl⟩
    exact ⟨⟨entry, member, rfl⟩, named⟩
  · rintro ⟨⟨entry, member, rfl⟩, named⟩
    exact ⟨entry, ⟨member, named⟩, rfl⟩

/-- Where every body has a media type, all of them count. -/
theorem dressed_of_not_bare (h : ¬bodies.Bare) : bodies.dressed = bodies :=
  List.filter_eq_self.mpr fun entry member =>
    decide_eq_true fun bare => h (List.mem_map.mpr ⟨entry, member, bare⟩)

/-- Leaving bodies out makes no two of them share a media type. -/
theorem nodup_dressed (unique : (Keyed.keys bodies).Nodup) : (Keyed.keys bodies.dressed).Nodup :=
  (List.filter_sublist.map _).nodup unique

/-- There is a body without a media type, and no media type to put it under. -/
def lacks (names : List String) (bodies : Bodies) : Bool :=
  names.isEmpty && Keyed.has bodies ""

/-- A table lacks a media type if it has a body without one, and none is listed. -/
theorem lacks_iff : lacks names bodies = true ↔ names = [] ∧ bodies.Bare := by
  rw [lacks, Bool.and_eq_true, List.isEmpty_iff, Keyed.has_iff, Bare]

/-- The bodies that have a media type, and behind them the one without, under each of the media types
that is missing. -/
def placed (names : List String) (bodies : Bodies) : Bodies :=
  match Keyed.get? bodies "" with
  | none => bodies
  | some body =>
      let others := Keyed.erase bodies ""
      others ++ (Keyed.missingNames others names).map fun name => (name, body)

/-- Putting bodies under media types fails for one reason only. -/
theorem underMediaTypes_settles (names : List String) (bodies : Bodies)
    : Settles (lacks names) (underMediaTypes names bodies) [bodies] (placed names bodies) := by
  rw [Settles, List.any_cons, List.any_nil, Bool.or_false, underMediaTypes, placed, lacks]
  cases own : Keyed.get? bodies "" with
  | none =>
      have bare : Keyed.has bodies "" = false := by
        simpa [← Keyed.has_iff] using Keyed.get?_eq_none_iff.mp own
      simp [bare]
  | some body =>
      have bare : Keyed.has bodies "" = true :=
        Keyed.has_iff.mpr (Keyed.get?_isSome_iff.mp (by rw [own]; rfl))
      simp only [bare, Bool.and_true, Keyed.foldl_missing_eq fun _ => body]

/-- What becomes of a table of bodies: each has a media type, those that had one come first and as
they were, and behind them the one without stands under each of the media types that was missing. -/
structure Placed (names : List String) (before after : Bodies) : Prop where
  named : ¬after.Bare
  unique : (Keyed.keys after).Nodup
  kept : before.dressed <+: after
  copied {body : TypeNode} (bare : ("", body) ∈ before) {name : String} (listed : name ∈ names)
    (new : name ∉ Keyed.keys before) : (name, body) ∈ after
  only {name : String} {body : TypeNode} (member : (name, body) ∈ after)
    : (name, body) ∈ before
      ∨ name ∈ names ∧ name ∉ Keyed.keys before ∧ ("", body) ∈ before

/-- Where all bodies have media types, there is nothing to do. -/
theorem Placed.of_not_bare (h : ¬bodies.Bare) (unique : (Keyed.keys bodies).Nodup)
    : Placed names bodies bodies where
  named := h
  unique := unique
  kept := (dressed_of_not_bare h).symm ▸ List.prefix_rfl
  copied bare := absurd (List.mem_map_of_mem bare) h
  only := Or.inl

/-- The body without a media type is repeated behind the others, under names that these do not have.
-/
theorem Placed.of_bare {body : TypeNode} (bare : ("", body) ∈ bodies)
    (unique : (Keyed.keys bodies).Nodup) (named : "" ∉ names)
    : Placed names bodies (bodies.dressed
        ++ (Keyed.missingNames bodies.dressed names).map fun name => (name, body)) := by
  -- A default media type is missing among the others exactly if it was missing before.
  have missing {name : String} : name ∈ Keyed.missingNames bodies.dressed names
      ↔ name ∈ names ∧ name ∉ Keyed.keys bodies := by
    rw [Keyed.mem_missingNames_iff, mem_keys_dressed_iff]
    refine and_congr_right fun listed => ?_
    have some : name ≠ "" := fun empty => named (empty ▸ listed)
    simp [some]
  refine ⟨?_, ?_, List.prefix_append _ _, ?_, ?_⟩
  · rw [Bare, Keyed.keys_append_missing _ _ fun _ => body, List.mem_append, not_or]
    exact ⟨fun own => (mem_keys_dressed_iff.mp own).2 rfl, fun added => named (missing.mp added).1⟩
  · rw [Keyed.keys_append_missing _ _ fun _ => body]
    refine List.nodup_append'.mpr ⟨nodup_dressed unique, Keyed.nodup_missingNames _ _, ?_⟩
    exact fun name own added => (missing.mp added).2 (mem_keys_dressed_iff.mp own).1
  · intro other bare' name listed new
    have same : some other = some body :=
      (Keyed.get?_of_mem unique bare').symm.trans (Keyed.get?_of_mem unique bare)
    cases same
    exact List.mem_append_right _ (List.mem_map_of_mem (missing.mpr ⟨listed, new⟩))
  · intro name other member
    rcases List.mem_append.mp member with own | added
    · exact Or.inl (mem_dressed_iff.mp own).1
    · obtain ⟨_, absent, same⟩ := List.mem_map.mp added
      cases same
      obtain ⟨listed, new⟩ := missing.mp absent
      exact Or.inr ⟨listed, new, bare⟩

/-- The table that is computed is the one that is described. -/
theorem placed_spec (unique : (Keyed.keys bodies).Nodup) (named : "" ∉ names)
    : Placed names bodies (placed names bodies) := by
  rw [placed]
  cases own : Keyed.get? bodies "" with
  | none => exact .of_not_bare (Keyed.get?_eq_none_iff.mp own) unique
  | some body =>
      rw [Keyed.erase_eq_filter unique]
      exact .of_bare (Keyed.mem_of_get? own) unique named

end Bodies

-----------------------------------------------------------------------------------------
-- Documents
-----------------------------------------------------------------------------------------

namespace Pass

/-- The pass acts on tables of bodies only. -/
theorem applyMediaTypes_reshapes (names : List String)
    : (applyMediaTypes (some names)).Reshapes (Bodies.lacks names) (Bodies.placed names)
        fun _ ps => ps where
  type _ _ _ := rfl
  properties _ _ := rfl
  annotations _ _ _ := rfl
  annotationTypes _ := rfl
  trait _ _ := rfl
  uriParameters _ _ := rfl
  bodies := Bodies.underMediaTypes_settles names

/-- A document without default media types is refused exactly if it has a body without a media type,
wherever that stands. Otherwise each body has a media type in the end: those that had one are kept
as they are and in their order, and those that had none stand under each default media type that was
not declared beside them. Nothing else is changed. -/
theorem run_applyMediaTypes (target : Target) (d : Document) (named : "" ∉ d.mediaType)
    (unique : ∀ bodies ∈ d.bodyTables, (Keyed.keys bodies).Nodup)
    : ((applyMediaTypes (some d.mediaType)).run target d = .error .missingMediaType
        ↔ d.mediaType = [] ∧ ∃ bodies ∈ d.bodyTables, bodies.Bare)
      ∧ ((applyMediaTypes (some d.mediaType)).run target d = .error .missingMediaType
        ∨ ∃ d', (applyMediaTypes (some d.mediaType)).run target d = .ok d'
            ∧ d' = d.reshape (Bodies.placed d.mediaType) (fun _ ps => ps)
            ∧ List.Forall₂ (Bodies.Placed d.mediaType) d.bodyTables d'.bodyTables) := by
  have settles := (applyMediaTypes_reshapes d.mediaType).run target d
  rw [Settles] at settles
  have lacking : d.bodyTables.any (Bodies.lacks d.mediaType) = true
      ↔ d.mediaType = [] ∧ ∃ bodies ∈ d.bodyTables, bodies.Bare := by
    rw [List.any_eq_true]
    constructor
    · rintro ⟨bodies, member, lacks⟩
      obtain ⟨nowhere, bare⟩ := Bodies.lacks_iff.mp lacks
      exact ⟨nowhere, bodies, member, bare⟩
    · rintro ⟨nowhere, bodies, member, bare⟩
      exact ⟨bodies, member, Bodies.lacks_iff.mpr ⟨nowhere, bare⟩⟩
  rw [settles, ← lacking]
  cases d.bodyTables.any (Bodies.lacks d.mediaType) with
  | true => simp
  | false =>
      refine ⟨by simp, Or.inr ⟨_, rfl, rfl, ?_⟩⟩
      rw [Document.bodyTables_reshape, List.forall₂_map_right_iff, List.forall₂_same]
      exact fun bodies member => Bodies.placed_spec (unique bodies member) named

/-- A trait has a body without a media type, and a method has one beside a body with a media type. -/
def upload (mediaType : List String) : Document :=
  let alone := { Method.empty with bodies := [("", .ofName "file")] }
  let beside := { Method.empty with bodies := [("", .ofName "file"), ("text/xml", .ofName "any")] }
  { mediaType
    library := { Library.empty with traits := [("stored", { Trait.empty with method := alone })] }
    resources := [("/files", { Resource.empty with methods := [("post", beside)] })] }

/-- A default media type that is given twice counts once. -/
theorem run_applyMediaTypes_upload
    : let d := upload ["application/json", "text/xml", "application/json"]
      "" ∉ d.mediaType ∧ (∀ bodies ∈ d.bodyTables, (Keyed.keys bodies).Nodup)
      ∧ (∃ d', (applyMediaTypes (some d.mediaType)).run .api d = .ok d'
          ∧ d'.bodyTables.map Keyed.keys
            = [["application/json", "text/xml"], ["text/xml", "application/json"]])
      ∧ (applyMediaTypes (some [])).run .api (upload []) = .error .missingMediaType := by
  have unique (names : List String)
      : ∀ bodies ∈ (upload names).bodyTables, (Keyed.keys bodies).Nodup := by
    have tables : (upload names).bodyTables = (upload []).bodyTables := rfl
    rw [tables]
    decide
  intro d
  have nowhere := run_applyMediaTypes .api (upload []) (by decide) (unique _)
  refine ⟨by decide, unique _, ?_, nowhere.1.mpr ⟨rfl, _, .head _, .head _⟩⟩
  obtain ⟨failed, done⟩ := run_applyMediaTypes .api d (by decide) (unique _)
  rcases done with error | ⟨d', ok, rfl, -⟩
  · exact absurd (failed.mp error).1 (by decide)
  · refine ⟨_, ok, ?_⟩
    rw [Document.bodyTables_reshape]
    decide

end Pass

end Raml
