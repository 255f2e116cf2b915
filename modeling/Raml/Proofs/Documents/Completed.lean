import Raml.Proofs.Documents.Prepared
import Raml.Proofs.Examples.Regular

/-! What is sound stays sound while a document is completed. By then all files of examples are read,
and for types that are files what has been read is binary.
-/

namespace Raml

open Rules

namespace Rules

/-- The value of an example that has been read from a file is binary if its type is a file. -/
def ReadAs (kind : Kind) (value : Option Value) : Prop :=
  kind = .file → ∃ bytes, value = some (.binary bytes)

/-- Of a document some of whose files have been read. -/
def reading : Rules where
  ofExample kind value included loaded := included = true →
    (loaded = false ∧ ∃ path, value = some (.string path)) ∨ loaded = true ∧ ReadAs kind value
  ofApplied := linked.ofApplied

/-- Of a document that is complete. -/
def completed : Rules where
  ofExample kind value included loaded := included = true → loaded = true ∧ ReadAs kind value
  ofApplied := linked.ofApplied

variable {R R' : Rules}

/-- Rules that demand less hold where others do. -/
theorem All.mono (demands : ∀ leaf, R.OfLeaf leaf → R'.OfLeaf leaf) {leaves : List Leaf}
    (h : R.All leaves)
    : R'.All leaves :=
  fun leaf member => ⟨(h leaf member).1, demands leaf (h leaf member).2⟩

/-- Before any file is read, nothing is demanded of what has been read. -/
theorem reading_of_linked (leaf : Leaf) (h : linked.OfLeaf leaf) : reading.OfLeaf leaf := by
  cases leaf with
  | exampleValue => exact fun included => Or.inl (h included)
  | _ => exact h

/-- A file that has been read may be read again. -/
theorem reading_of_complete (leaf : Leaf) (h : completed.OfLeaf leaf) : reading.OfLeaf leaf := by
  cases leaf with
  | exampleValue => exact fun included => Or.inr (h included)
  | _ => exact h

/-- Annotations have no files. -/
theorem complete_of_annotations {g : Annotations} (h : reading.All (Annotations.leaves g))
    : completed.All (Annotations.leaves g) :=
  all_annotations.mpr ((all_annotations (R := reading)).mp h)

end Rules

-----------------------------------------------------------------------------------------
-- Files
-----------------------------------------------------------------------------------------

variable {load : Include}

/-- An example is complete once its file has been read, whatever the file holds. -/
theorem Example.materialize_complete (reads : load.Regular) {kind : Kind} {e : Example}
    (h : reading.All (e.leaves kind))
    : Yields (e.materialize load kind) fun e => completed.All (e.leaves kind) := by
  obtain ⟨⟨regular, allowed⟩, applied⟩ := all_example.mp h
  have annotations := complete_of_annotations applied
  unfold materialize
  cases pending : e.pendingPath? with
  | some path =>
      refine Yields.bind (reads path kind) fun v ⟨regular, binary⟩ => Yields.ok ?_
      refine all_example.mpr ⟨⟨?_, fun _ => ⟨rfl, fun file => ?_⟩⟩, annotations⟩
      · rintro _ ⟨⟩
        exact regular
      · obtain ⟨bytes, same⟩ := binary file
        exact ⟨bytes, congrArg some same⟩
  | none =>
      refine Yields.ok (all_example.mpr ⟨⟨regular, fun included => ?_⟩, annotations⟩)
      rcases allowed included with ⟨left, path, value⟩ | read
      · simp [pendingPath?, included, left, value, Value.text?] at pending
      · exact read

/-- The type by itself is complete once its examples are read. Its properties are left as they are.
-/
theorem TypeNode.materialize_complete (reads : load.Regular) {t : TypeNode}
    (h : reading.All t.leaves)
    : Yields (t.materialize load) fun t' => completed.OfType t' ∧ reading.All t'.leaves := by
  obtain ⟨own, properties⟩ := all_type.mp h
  have declared := own.declaration
  have annotations := complete_of_annotations declared.annotations
  intro t' read
  obtain ⟨example?, examples, rfl, single, named⟩ := TypeNode.mapExamplesM_leads declared.single
    declared.named (fun e sound => Example.materialize_complete reads sound) t' read
  have done : completed.OfType (t.withExamples example? examples) :=
    ⟨own.name, own.kind, own.inPlace, ⟨declared.default?, declared.schema, single, named,
      annotations, declared.facets, declared.xml⟩, own.values, own.discriminatorValue, own.items⟩
  have ownLeaves := (all_ownLeaves.mpr done).mono reading_of_complete
  exact ⟨done, all_type.mpr ⟨all_ownLeaves.mp ownLeaves, properties⟩⟩

namespace Library

/-- The files of declared types are read, in the libraries that are used too. -/
theorem materialize_reading (source : Source) (directory : Path) {l : Library}
    (h : linked.All l.allLeaves)
    : Yields (l.materialize source directory) fun l => reading.All l.allLeaves := by
  induction l using induct generalizing directory with
  | step l ih =>
      obtain ⟨own, used⟩ := all_library.mp h
      have types := all_mapM own.types fun entry _ h =>
        (TypeNode.materialize_complete (source.include_regular (l.location.getD directory))
          (h.mono reading_of_linked)).mono fun _ done => done.2
      have inside : Yields (materializeUses source (l.location.getD directory) l.uses) fun uses =>
          Keyed.keys uses = Keyed.keys l.uses
            ∧ ∀ name m, (name, Use.loaded m) ∈ uses → reading.All m.allLeaves := by
        rw [materializeUses_eq]
        exact all_changeUses fun name m member => ih name m member _ (used name m member)
      rw [materialize_eq]
      refine Yields.bind types fun types ofTypes => ?_
      refine Yields.bind inside fun uses ⟨keys, all⟩ => Yields.ok ?_
      have rest := all_libraryLeaves.mp ((all_libraryLeaves.mpr own).mono reading_of_linked)
      exact all_library.mpr ⟨{ rest with types := ofTypes, uses := keys ▸ own.uses }, all⟩

end Library

-----------------------------------------------------------------------------------------
-- Documents
-----------------------------------------------------------------------------------------

/-- The example that is added to a type without any has been derived. -/
theorem TypeNode.addDerived_complete (reads : load.Regular) {declared : String → Option TypeNode}
    (lent : ∀ name base, declared name = some base → reading.All base.leaves)
    (names : List String) {t : TypeNode} (own : completed.OfType t) (h : reading.All t.leaves)
    : Yields (t.addDerived load declared names) fun done => completed.OfType done.1 := by
  unfold addDerived
  split
  · exact Yields.ok own
  · refine Yields.bind (Derivation.derive_regular reads lent names h) fun v? regular => ?_
    cases v? with
    | none => exact Yields.ok own
    | some v =>
        have added : completed.All ((Example.ofValue v).leaves t.kind) :=
          all_example.mpr ⟨⟨regular, nofun⟩, all_noAnnotations⟩
        have declared := own.declaration
        refine Yields.ok { own with declaration := { declared with single := ?_, named := ?_ } }
        · rintro _ ⟨⟩
          exact added
        · exact all_examples.mpr ⟨List.pairwise_singleton _ _, List.forall_mem_singleton.mpr added⟩

/-- Examples that are derived are taken from such that are complete. -/
theorem Pass.leads_fillExamples (source : Source) : Leads reading completed (fillExamples source) := by
  refine leads_ofHooks (M := completed) (fun scope around => ?_) fun _ _ _ h =>
    Yields.ok (complete_of_annotations h)
  exact {
    node := fun h => by
      have reads := source.include_regular scope.directory
      refine Yields.bind (TypeNode.materialize_complete reads h) fun t ⟨own, all⟩ => ?_
      refine Yields.bind (TypeNode.addDerived_complete reads (fun _ _ found =>
        Library.all_of_getType? around found) _ own all) fun done own => Yields.ok own
    properties := fun h => Yields.ok (ofProperties_iff_named.mp h).1
    annotations := fun _ _ h => Yields.ok h
    examples := id }

namespace Parser

variable {p : Parser} {target : Target} {mediaTypes : Option (List String)} {d₀ d s : Document}

/-- All examples are complete when parsing is done. -/
theorem finish_complete (h : linked.All s.allLeaves)
    : Yields (p.finish target s) fun d' => completed.All d'.allLeaves := by
  have fills : Pass.Leads linked linked .fillUriParameters :=
    Pass.leads_fillUriParameters (kindFree_pending _)
  refine Yields.bind (fills.run target h) fun d h => ?_
  have parts := all_document.mp h
  have others := all_document.mp (h.mono reading_of_linked)
  refine Yields.bind (Library.materialize_reading p.source d.directory parts.library)
    fun l sound => (Pass.leads_fillExamples p.source).run target ?_
  exact all_document.mpr { others with library := sound }

/-- What a document comes to say is sound, whatever it is parsed from. -/
theorem complete_of_resolve (written : d₀.Written)
    (parsed : p.resolve target mediaTypes d₀ = .ok d)
    : completed.All d.allLeaves := by
  obtain ⟨_, loads⟩ := exists_loads parsed
  obtain ⟨n, f, s, phases, -⟩ := phases_of_resolve loads parsed
  have normal := Document.normalize_named (written.sound_of_loads loads) n phases.normal
  have filled := Document.fill_linked normal f phases.filled
  have substituted := Pass.leads_fillTraits.run target filled s phases.substituted
  exact finish_complete substituted d phases.finished

end Parser

end Raml
