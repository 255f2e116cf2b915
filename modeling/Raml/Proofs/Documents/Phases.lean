import Raml.Proofs.Documents.Files

/-! The phases in which a document is parsed: it is brought into normal form, types inherit and
annotations are linked, traits are filled in, and so is the rest before the document is reviewed.
-/

namespace Raml

/-- In normal form a declaration of an annotation has the name that it had. -/
theorem AnnotationTypes.keys_withTypes (types : AnnotationTypes)
    : Keyed.keys types.withTypes = Keyed.keys types := by
  simp [withTypes, Keyed.keys, Function.comp_def]

namespace Document

/-- What is written in the text of a document, or of a library by itself. -/
inductive Written : Document → Prop where
  | document {node : Yaml.Node} {d : Document} (h : Decode.document node = .ok d) (directory : Path)
    : Written { d with directory }
  | library {node : Yaml.Node} {l : Library} (h : Decode.library node "" = .ok l)
    (directory : Path)
    : Written { library := l, directory }

/-- What can be written in several ways is brought into one form. -/
def normalize (target : Target) (mediaTypes : Option (List String)) (d : Document)
    : Except Error Document := do
  let d ← Pass.normalizeProperties.run target d
  let d ← (Pass.applyMediaTypes mediaTypes).run target d
  let d ← Pass.completeAnnotations.run target d
  Pass.nameAnnotations.run target d

/-- Types inherit, and annotations are linked to their declarations. -/
def fill (target : Target) (d : Document) : Except Error Document := do
  let d := { d with library := ← d.library.resolve }
  Pass.fillTypes.run target d

/-- What is done before examples are read are these phases in turn. -/
theorem prepare_eq (target : Target) (mediaTypes : Option (List String)) (d : Document)
    : d.prepare target mediaTypes
      = d.normalize target mediaTypes >>= fun n => n.fill target >>= fun f =>
          Pass.fillTraits.run target f >>= Pass.fillUriParameters.run target := by
  simp only [prepare, normalize, fill, bind_assoc]

end Document

namespace Parser

variable {p : Parser} {target : Target} {mediaTypes : Option (List String)} {d₀ d n f s d' : Document}

/-- What keys of resources ask for is declared, and examples are read or derived. -/
def finish (p : Parser) (target : Target) (d : Document) : Except Error Document := do
  let d ← Pass.fillUriParameters.run target d
  let d := { d with library := ← d.library.materialize p.source d.directory }
  (Pass.fillExamples p.source).run target d

/-- With examples, the last phase is the finish. -/
theorem filled_eq (p : Parser) (target : Target) (mediaTypes : Option (List String)) (d : Document)
    : (p.prepare target mediaTypes d >>= (Pass.fillExamples p.source).run target)
      = d.normalize target mediaTypes >>= fun n => n.fill target >>= fun f =>
          Pass.fillTraits.run target f >>= fun s => p.finish target s := by
  simp only [prepare, Document.prepare_eq, finish, bind_assoc, pure_bind]

/-- A document whose libraries are loaded becomes `n` in normal form, `f` when types have inherited
and annotations are linked, `s` when traits are filled in, and `d'` when it is complete. -/
structure Phases (p : Parser) (target : Target) (mediaTypes : Option (List String))
    (d n f s d' : Document) : Prop where
  normal : d.normalize target mediaTypes = .ok n
  filled : n.fill target = .ok f
  substituted : Pass.fillTraits.run target f = .ok s
  finished : p.finish target s = .ok d'

/-- Phases one after the other make the computation succeed. -/
theorem Phases.filled_eq_ok (phases : p.Phases target mediaTypes d n f s d')
    : (p.prepare target mediaTypes d >>= (Pass.fillExamples p.source).run target) = .ok d' := by
  rw [filled_eq, phases.normal, ok_bind, phases.filled, ok_bind, phases.substituted, ok_bind,
    phases.finished]

/-- A computation that succeeds has gone by all phases. -/
theorem phases_of_filled
    (h : (p.prepare target mediaTypes d >>= (Pass.fillExamples p.source).run target) = .ok d')
    : ∃ n f s, p.Phases target mediaTypes d n f s d' := by
  rw [filled_eq] at h
  obtain ⟨n, normal, h⟩ := bind_eq_ok_iff.mp h
  obtain ⟨f, filled, h⟩ := bind_eq_ok_iff.mp h
  obtain ⟨s, substituted, finished⟩ := bind_eq_ok_iff.mp h
  exact ⟨n, f, s, normal, filled, substituted, finished⟩

/-- A document that comes to be complete is as good as its review. -/
theorem Phases.resolve_eq (phases : p.Phases target mediaTypes d n f s d') (loads : p.Loads d₀ d)
    : p.resolve target mediaTypes d₀
      = Review.run p.settings target d' >>= fun _ => .ok d' := by
  rw [resolve_of_loads loads, complete_eq_review, phases.filled_eq_ok, ok_bind]

/-- Then only the review can fail. -/
theorem Phases.resolve_error_iff (phases : p.Phases target mediaTypes d n f s d')
    (loads : p.Loads d₀ d) {e : Error}
    : p.resolve target mediaTypes d₀ = .error e ↔ Review.run p.settings target d' = .error e := by
  rw [phases.resolve_eq loads]
  cases Review.run p.settings target d' with
  | ok => exact ⟨nofun, nofun⟩
  | error e' => rw [error_bind, Except.error.injEq, Except.error.injEq]

/-- Whatever parses has been loaded. -/
theorem exists_loads (h : p.resolve target mediaTypes d₀ = .ok d') : ∃ d, p.Loads d₀ d := by
  rw [resolve_eq] at h
  obtain ⟨library, loaded, -⟩ := bind_eq_ok_iff.mp h
  exact ⟨_, library, loaded, rfl⟩

/-- A document that is parsed comes to be complete, and passes its review. -/
theorem phases_of_resolve (loads : p.Loads d₀ d) (h : p.resolve target mediaTypes d₀ = .ok d')
    : ∃ n f s, p.Phases target mediaTypes d n f s d'
        ∧ Review.run p.settings target d' = .ok () := by
  rw [resolve_of_loads loads, complete_eq_review] at h
  obtain ⟨_, filled, h⟩ := bind_eq_ok_iff.mp h
  obtain ⟨_, reviewed, same⟩ := bind_eq_ok_iff.mp h
  cases same
  obtain ⟨n, f, s, phases⟩ := phases_of_filled filled
  exact ⟨n, f, s, phases, reviewed⟩

/-- Whatever parses has passed the review. -/
theorem review_of_resolve (h : p.resolve target mediaTypes d₀ = .ok d')
    : Review.run p.settings target d' = .ok () := by
  obtain ⟨d, loads⟩ := exists_loads h
  obtain ⟨_, _, _, _, reviewed⟩ := phases_of_resolve loads h
  exact reviewed

/-- What is parsed has been written in a text. -/
theorem resolve_of_document {bytes : Bytes} {directory : Path}
    (h : p.document bytes directory = .ok d)
    : ∃ d₀ : Document, d₀.Written ∧ p.resolve .api (some d₀.mediaType) d₀ = .ok d := by
  obtain ⟨node, -, h⟩ := bind_eq_ok_iff.mp h
  obtain ⟨d₀, decoded, h⟩ := bind_eq_ok_iff.mp h
  exact ⟨_, .document decoded directory, h⟩

/-- A library by itself is resolved as that of a document without anything else. -/
theorem resolve_of_library {bytes : Bytes} {directory : Path} {l : Library}
    (h : p.library bytes directory = .ok l)
    : ∃ d₀ d : Document, d₀.Written ∧ p.resolve .library none d₀ = .ok d ∧ l = d.library := by
  obtain ⟨node, -, h⟩ := bind_eq_ok_iff.mp h
  obtain ⟨l₀, decoded, h⟩ := bind_eq_ok_iff.mp h
  obtain ⟨d, resolved, h⟩ := bind_eq_ok_iff.mp h
  cases h
  exact ⟨_, d, .library decoded directory, resolved, rfl⟩

/-- The document that a node spells, the one whose libraries are loaded, and its normal form. -/
def normal? (p : Parser) (node : Yaml.Node) : Option (Document × Document × Document) := do
  let d₀ ← (Decode.document node).toOption
  let library ← (d₀.library.load p.settings p.source d₀.directory).toOption
  let d := { d₀ with library }
  let n ← (d.normalize .api (some d₀.mediaType)).toOption
  return (d₀, d, n)

/-- What is computed are the documents of the first phase. -/
theorem normal_of_normal? {node : Yaml.Node} (h : p.normal? node = some (d₀, d, n))
    : d₀.Written ∧ p.Loads d₀ d ∧ d.normalize .api (some d₀.mediaType) = .ok n := by
  obtain ⟨_, decoded, h⟩ := Option.bind_eq_some_iff.mp h
  obtain ⟨library, loaded, h⟩ := Option.bind_eq_some_iff.mp h
  obtain ⟨_, normal, h⟩ := Option.bind_eq_some_iff.mp h
  cases h
  exact ⟨.document (ok_of_toOption decoded) d₀.directory,
    ⟨library, ok_of_toOption loaded, rfl⟩, ok_of_toOption normal⟩

/-- The first document that is computed is the one that has been written. -/
theorem decoded_of_normal? {node : Yaml.Node} (h : p.normal? node = some (d₀, d, n))
    : Decode.document node = .ok d₀ := by
  obtain ⟨_, decoded, h⟩ := Option.bind_eq_some_iff.mp h
  obtain ⟨_, -, h⟩ := Option.bind_eq_some_iff.mp h
  obtain ⟨_, -, h⟩ := Option.bind_eq_some_iff.mp h
  cases h
  exact ok_of_toOption decoded

/-- The phases after the first one. -/
def rest? (p : Parser) (n : Document) : Option (Document × Document × Document) := do
  let f ← (n.fill .api).toOption
  let s ← (Pass.fillTraits.run .api f).toOption
  let d' ← (p.finish .api s).toOption
  return (f, s, d')

/-- What is computed are the documents of the other phases. -/
theorem phases_of_rest? (normal : d.normalize .api mediaTypes = .ok n)
    (h : p.rest? n = some (f, s, d'))
    : p.Phases .api mediaTypes d n f s d' := by
  obtain ⟨_, filled, h⟩ := Option.bind_eq_some_iff.mp h
  obtain ⟨_, substituted, h⟩ := Option.bind_eq_some_iff.mp h
  obtain ⟨_, finished, h⟩ := Option.bind_eq_some_iff.mp h
  cases h
  exact ⟨normal, ok_of_toOption filled, ok_of_toOption substituted, ok_of_toOption finished⟩

/-- The document that a node spells comes to be complete, and a check of its phases succeeds. -/
theorem exists_phases (node : Yaml.Node) (check : Document → Document → Bool)
    (h : ((p.normal? node).any fun start =>
      (p.rest? start.2.2).any fun rest => check start.2.2 rest.2.2) = true)
    : ∃ d₀ d n f s d', d₀.Written ∧ p.Loads d₀ d ∧ p.Phases .api (some d₀.mediaType) d n f s d'
        ∧ check n d' = true := by
  obtain ⟨⟨d₀, d, n⟩, normal, h⟩ := (Option.any_eq_true _ _).mp h
  obtain ⟨⟨f, s, d'⟩, rest, checked⟩ := (Option.any_eq_true _ _).mp h
  obtain ⟨written, loads, normal⟩ := normal_of_normal? normal
  exact ⟨d₀, d, n, f, s, d', written, loads, phases_of_rest? normal rest, checked⟩

end Parser

end Raml
