import Raml.Proofs.Loading.Named
import Raml.Proofs.Loading.Twins
import Raml.Source.Memory

/-! Libraries that are parsed alone, and as parts of documents.

A library in a file goes through the same phases wherever it is used, in the directory of the file.
The traits in it depend on what is around it, for media types may be given there, and nothing else
does.
-/

namespace Raml

-----------------------------------------------------------------------------------------
-- One step after the other
-----------------------------------------------------------------------------------------

namespace Library

variable {S S' T T' : Path → Library → Library → Prop}

/-- What two steps come to, the second one being made after the first. -/
def Then (S T : Path → Library → Library → Prop) (directory : Path) (l l'' : Library) : Prop :=
  ∃ l', S directory l l' ∧ T directory l' l''

/-- Two steps that go through libraries side by side do so together. -/
theorem Parallel.then (parallel : Parallel S) (parallel' : Parallel T) : Parallel (Then S T) where
  location := by
    rintro directory l l'' ⟨l', first, second⟩
    exact (parallel'.location second).trans (parallel.location first)
  traits := by
    rintro directory l l'' ⟨l', first, second⟩
    exact (parallel'.traits second).trans (parallel.traits first)
  uses := by
    rintro directory l l'' ⟨l', first, second⟩
    refine ((parallel.uses first).trans (parallel'.uses second)).mono fun use use'' both => ?_
    obtain ⟨use', before, after⟩ := both
    cases before with
    | external path =>
        cases after
        exact .external path
    | loaded before =>
        cases after with
        | loaded after => exact .loaded ⟨_, before, parallel.location before ▸ after⟩

/-- The two steps make twins of twins. -/
structure Matches (S T : Path → Library → Library → Prop) : Prop where
  twins {directory : Path} {l l' r r' : Library} (h : S directory l r) (h' : T directory l' r')
    (twins : l.Twins l') : r.Twins r'

/-- Two steps that make twins of twins do so together. -/
theorem Matches.then (first : Matches S T) (second : Matches S' T')
    : Matches (Then S S') (Then T T') where
  twins h h' twins := by
    obtain ⟨m, before, after⟩ := h
    obtain ⟨m', before', after'⟩ := h'
    exact second.twins after after' (first.twins before before' twins)

/-- Passes that are alike make twins of twins. -/
theorem matches_takes {p p' q : Pass} (like : p.Like q) (like' : p'.Like q)
    : Matches p.Takes p'.Takes where
  twins h h' twins := h.twins like like' h' twins

/-- Resolution makes twins of twins. -/
theorem matches_resolve
    : Matches (fun _ l l' => l.resolve = .ok l') (fun _ l l' => l.resolve = .ok l') where
  twins h h' twins := twins.resolve h h'

/-- Reading examples makes twins of twins, as they are in one directory. -/
theorem matches_materializes (source : Source)
    : Matches (Materializes source) (Materializes source) where
  twins h h' twins := twins.materialize h h'

end Library

-----------------------------------------------------------------------------------------
-- Passes
-----------------------------------------------------------------------------------------

namespace Pass

/-- Hooks that find nothing. -/
theorem like_ofHooks (hooks : TypeHooks)
    (annotations : ∀ targets targets', hooks.annotations targets = hooks.annotations targets')
    : (ofHooks fun _ => hooks).Like (ofHooks fun _ => hooks) where
  type _ _ := rfl
  annotations _ targets targets' := annotations targets' targets
  annotationTypes := rfl

theorem like_normalizeProperties : normalizeProperties.Like normalizeProperties :=
  like_ofHooks _ fun _ _ => rfl

/-- Media types are given to the bodies in traits only. -/
theorem like_applyMediaTypes (mediaTypes : Option (List String))
    : (applyMediaTypes mediaTypes).Like {} := by
  cases mediaTypes <;> exact ⟨fun _ _ => rfl, fun _ _ _ => rfl, rfl⟩

theorem like_completeAnnotations : completeAnnotations.Like completeAnnotations :=
  ⟨fun _ _ => rfl, fun _ _ _ => rfl, rfl⟩

theorem like_nameAnnotations : nameAnnotations.Like nameAnnotations :=
  like_ofHooks _ fun _ _ => rfl

/-- Annotations are linked to what can be found. -/
theorem linkDeclared_sees {s s' : Scope} (sees : s.Sees s')
    : Annotations.linkDeclared s'.library = Annotations.linkDeclared s.library := by
  have link : Annotation.link s'.library = Annotation.link s.library := by
    funext a
    unfold Annotation.link
    rw [sees.annotationType]
  have declared : Annotation.linkDeclared s'.library = Annotation.linkDeclared s.library := by
    funext a
    unfold Annotation.linkDeclared
    rw [link]
  funext annotations
  rw [Annotations.linkDeclared, Annotations.linkDeclared, declared]

/-- Types inherit from what can be found. -/
theorem like_fillTypes : fillTypes.Like fillTypes where
  type {s s'} sees targets := by
    funext t
    have links : linkHooks s' = linkHooks s := by rw [linkHooks, linkHooks, linkDeclared_sees sees]
    simp only [fillTypes, TypeNode.fill, sees.type, links]
  annotations sees _ _ := linkDeclared_sees sees
  annotationTypes := rfl

/-- Traits are all that is changed. -/
theorem like_fillTraits : fillTraits.Like fillTraits :=
  ⟨fun _ _ => rfl, fun _ _ _ => rfl, rfl⟩

theorem like_fillUriParameters : fillUriParameters.Like fillUriParameters :=
  ⟨fun _ _ => rfl, fun _ _ _ => rfl, rfl⟩

/-- Files are read from the directory, and bases are what can be found. -/
theorem like_fillExamples (source : Source) : (fillExamples source).Like (fillExamples source) where
  type {s s'} sees targets := by
    have derives : exampleOf source s' = exampleOf source s := by
      funext t
      rw [exampleOf, exampleOf, sees.directory, sees.type, sees.typeNames]
    simp only [fillExamples, ofHooks, derives]
  annotations _ _ _ := rfl
  annotationTypes := rfl

end Pass

-----------------------------------------------------------------------------------------
-- Phases
-----------------------------------------------------------------------------------------

namespace Library

open Pass

/-- Everything is filled in that needs no files. -/
def Prepares (mediaTypes : Option (List String)) : Path → Library → Library → Prop :=
  Then normalizeProperties.Takes <| Then (applyMediaTypes mediaTypes).Takes <|
    Then completeAnnotations.Takes <| Then nameAnnotations.Takes <|
    Then (fun _ l l' => l.resolve = .ok l') <| Then fillTypes.Takes <|
    Then fillTraits.Takes fillUriParameters.Takes

/-- All that is done to a library that has been loaded. -/
def Completes (source : Source) (mediaTypes : Option (List String))
    : Path → Library → Library → Prop :=
  Then (Prepares mediaTypes) (Then (Materializes source) (fillExamples source).Takes)

/-- All steps go through libraries side by side. -/
theorem parallel_prepares (mediaTypes : Option (List String)) : Parallel (Prepares mediaTypes) :=
  (parallel_takes _).then <| (parallel_takes _).then <| (parallel_takes _).then <|
    (parallel_takes _).then <| parallel_resolve.then <| (parallel_takes _).then <|
    (parallel_takes _).then (parallel_takes _)

theorem parallel_completes (source : Source) (mediaTypes : Option (List String))
    : Parallel (Completes source mediaTypes) :=
  (parallel_prepares mediaTypes).then <| (parallel_materializes source).then (parallel_takes _)

/-- Whatever media types are given, twins become twins, since only bodies get them. -/
theorem matches_prepares (mediaTypes mediaTypes' : Option (List String))
    : Matches (Prepares mediaTypes) (Prepares mediaTypes') :=
  (matches_takes like_normalizeProperties like_normalizeProperties).then <|
    (matches_takes (like_applyMediaTypes _) (like_applyMediaTypes _)).then <|
    (matches_takes like_completeAnnotations like_completeAnnotations).then <|
    (matches_takes like_nameAnnotations like_nameAnnotations).then <|
    matches_resolve.then <| (matches_takes like_fillTypes like_fillTypes).then <|
    (matches_takes like_fillTraits like_fillTraits).then
      (matches_takes like_fillUriParameters like_fillUriParameters)

/-- Whatever media types are given around them, twins are completed alike. -/
theorem matches_completes (source : Source) (mediaTypes mediaTypes' : Option (List String))
    : Matches (Completes source mediaTypes) (Completes source mediaTypes') :=
  (matches_prepares mediaTypes mediaTypes').then <|
    (matches_materializes source).then
      (matches_takes (like_fillExamples source) (like_fillExamples source))

end Library

namespace Parser

open Library (Completes Prepares)

variable {p : Parser} {target : Target} {mediaTypes : Option (List String)}
variable {d₀ d n f s d' : Document}

/-- In the phases of parsing, the library of a document is completed in the document's directory. -/
theorem Phases.completes (phases : p.Phases target mediaTypes d n f s d')
    (location : d.library.location = none)
    : Completes p.source mediaTypes d.directory d.library d'.library := by
  obtain ⟨d₁, properties, h⟩ := bind_eq_ok_iff.mp phases.normal
  obtain ⟨d₂, bodies, h⟩ := bind_eq_ok_iff.mp h
  obtain ⟨d₃, values, names⟩ := bind_eq_ok_iff.mp h
  obtain ⟨resolved, resolution, types⟩ := bind_eq_ok_iff.mp phases.filled
  obtain ⟨d₄, parameters, h⟩ := bind_eq_ok_iff.mp phases.finished
  obtain ⟨read, materialized, examples⟩ := bind_eq_ok_iff.mp h
  have first := Pass.directory_of_run properties
  have second := (Pass.directory_of_run bodies).trans first
  have third := (Pass.directory_of_run values).trans second
  have fourth := (Pass.directory_of_run names).trans third
  have fifth : f.directory = d.directory := (Pass.directory_of_run types).trans fourth
  have sixth := (Pass.directory_of_run phases.substituted).trans fifth
  have seventh := (Pass.directory_of_run parameters).trans sixth
  have prepares : Prepares mediaTypes d.directory d.library d₄.library :=
    ⟨d₁.library, Pass.takes_of_run properties, d₂.library, first ▸ Pass.takes_of_run bodies,
      d₃.library, second ▸ Pass.takes_of_run values, n.library, third ▸ Pass.takes_of_run names,
      resolved, resolution, f.library, fourth ▸ Pass.takes_of_run types,
      s.library, fifth ▸ Pass.takes_of_run phases.substituted, sixth ▸ Pass.takes_of_run parameters⟩
  have here : d₄.library.location = none :=
    ((Library.parallel_prepares mediaTypes).location prepares).trans location
  refine ⟨d₄.library, prepares, read, ⟨d₄.directory, ?_, materialized⟩, ?_⟩
  · rw [here, seventh]
    rfl
  · exact seventh ▸ Pass.takes_of_run examples

/-- A document that is parsed has been loaded and completed. -/
theorem completes_of_resolve (written : d₀.Written) (h : p.resolve target mediaTypes d₀ = .ok d')
    : ∃ l, d₀.library.Loads p.settings p.source d₀.directory l
        ∧ Completes p.source mediaTypes d₀.directory l d'.library := by
  obtain ⟨d, loads⟩ := exists_loads h
  obtain ⟨n, f, s, phases, -⟩ := phases_of_resolve loads h
  have location := written.location loads
  obtain ⟨l, loaded, rfl⟩ := loads
  exact ⟨l, Library.loads_of_load loaded, phases.completes location⟩

/-- A library in a file is parsed as one that stands in the directory of the file. -/
theorem resolve_of_libraryFile {file : Path} {l : Library} (h : p.libraryFile file = .ok l)
    : ∃ (l₀ : Library) (d : Document),
        Library.read p.settings p.source file = .ok { l₀ with location := file.parent? }
          ∧ Document.Written { library := l₀, directory := file.parent }
          ∧ p.resolve .library none { library := l₀, directory := file.parent } = .ok d
          ∧ l = d.library := by
  obtain ⟨bytes, read, h⟩ := bind_eq_ok_iff.mp h
  obtain ⟨node, spelled, h⟩ := bind_eq_ok_iff.mp h
  obtain ⟨l₀, decoded, h⟩ := bind_eq_ok_iff.mp h
  obtain ⟨d, resolved, same⟩ := bind_eq_ok_iff.mp h
  cases same
  refine ⟨l₀, d, ?_, .library decoded file.parent, resolved, rfl⟩
  rw [Library.read, read, ok_bind, spelled, ok_bind, decoded]
  rfl

/-- A library comes to declare the same types, with all that they inherit and all examples, the same
declarations of annotations and the same annotations, whether its file is parsed alone or used, by
the same path, in a document or in any library that the document leads to; and so do the libraries
that it uses itself. A file stands in some directory: only the empty path and the root do not. -/
theorem libraryFile_agrees {file home : Path} {alone : Library} (stands : file.parent? = some home)
    (parsed : p.libraryFile file = .ok alone) (written : d₀.Written)
    (resolved : p.resolve target mediaTypes d₀ = .ok d) {path : List String} {there : Path}
    {m : Library} (leads : d₀.library.LeadsTo p.settings p.source d₀.directory path there m)
    {name named : String} (uses : (name, Use.external named) ∈ m.uses)
    (same : there.join ⟨named⟩ = file)
    : ∃ nested, d.library.Reaches (path ++ [name]) nested
        ∧ alone.Corresponds (fun _ => Library.Agrees) nested := by
  obtain ⟨l₀, d₁, read, writtenAlone, resolvedAlone, rfl⟩ := resolve_of_libraryFile parsed
  obtain ⟨l, loadsAlone, completesAlone⟩ := completes_of_resolve writtenAlone resolvedAlone
  obtain ⟨l', loads, completes⟩ := completes_of_resolve written resolved
  have here : file.parent = home := by rw [Path.parent, stands]; rfl
  rw [stands] at read
  rw [here] at loadsAlone completesAlone
  have behind : d₀.library.LeadsTo p.settings p.source d₀.directory (path ++ [name]) home
      { l₀ with location := some home } :=
    leads.trans (.used uses (.external (same ▸ read)) (.self _ _))
  obtain ⟨m', reaches, loaded⟩ := loads.forward behind
  cases (loadsAlone.moved (some home)).unique loaded
  obtain ⟨nested, reached, inside⟩ :=
    (Library.parallel_completes p.source mediaTypes).forward reaches completes
  have twins : l.Twins { l with location := some home } := by
    rw [Library.Twins, Library.bare_eq, Library.bare_eq]
  have agree := (Library.matches_completes p.source none mediaTypes).twins completesAlone inside twins
  exact ⟨nested, reached.reaches, agree.agree⟩

/-- The library that a document uses, in a file. -/
def wordFiles : MemoryFiles :=
  .ofList [("libs/words.raml", Bytes.ofText "types:\n  Word: string")]

def wordList : Yaml.Node :=
  .map [(.str "title", .str "Words"), (.str "uses", .map [(.str "words", .str "libs/words.raml")])]

/-- The file that a namespace of a library names. -/
def namedFile? (l : Library) (name : String) : Option String :=
  match Keyed.get? l.uses name with
  | some (.external file) => some file
  | _ => none

theorem mem_uses_of_namedFile? {l : Library} {name file : String}
    (h : namedFile? l name = some file)
    : (name, Use.external file) ∈ l.uses := by
  unfold namedFile? at h
  split at h
  · rename_i found
    cases h
    exact Keyed.mem_of_get? found
  · cases h

/-- The words are declared alike by the library alone and in the document that uses it. -/
theorem libraryFile_agrees_words
    : ∃ (alone nested : Library) (d₀ d : Document),
        Parser.libraryFile { source := wordFiles.source } ⟨"libs/words.raml"⟩ = .ok alone
          ∧ Keyed.keys alone.types = ["Word"]
          ∧ Parser.resolve { source := wordFiles.source } .api (some d₀.mediaType) d₀ = .ok d
          ∧ d.library.Reaches ["words"] nested
          ∧ alone.Corresponds (fun _ => Library.Agrees) nested := by
  have found : ((Parser.libraryFile { source := wordFiles.source } ⟨"libs/words.raml"⟩).toOption.any
      fun alone => Keyed.keys alone.types = ["Word"]) = true := by
    decide +kernel
  have used : ((Decode.document wordList).toOption.any fun d₀ =>
      namedFile? d₀.library "words" = some "libs/words.raml" ∧ d₀.directory.text = ""
        ∧ (Parser.resolve { source := wordFiles.source } .api (some d₀.mediaType)
            d₀).toOption.isSome) = true := by
    decide +kernel
  obtain ⟨alone, parsed, names⟩ := (Option.any_eq_true _ _).mp found
  obtain ⟨d₀, decoded, checked⟩ := (Option.any_eq_true _ _).mp used
  obtain ⟨named, here, some⟩ := of_decide_eq_true checked
  obtain ⟨d, resolved⟩ := Option.isSome_iff_exists.mp some
  have parsed := ok_of_toOption parsed
  have resolved := ok_of_toOption resolved
  have written : d₀.Written := .document (ok_of_toOption decoded) d₀.directory
  have same : d₀.directory.join ⟨"libs/words.raml"⟩ = ⟨"libs/words.raml"⟩ := by
    simp [Path.join, here]
  have stands : Path.parent? ⟨"libs/words.raml"⟩ = Option.some ⟨"libs"⟩ := by decide +kernel
  obtain ⟨nested, reaches, agrees⟩ := libraryFile_agrees stands parsed written resolved (.self _ _)
    (mem_uses_of_namedFile? named) same
  exact ⟨alone, nested, d₀, d, parsed, of_decide_eq_true names, resolved, reaches, agrees⟩

end Parser

end Raml
