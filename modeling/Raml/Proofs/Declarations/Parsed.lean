import Raml.Proofs.Declarations.Passes
import Raml.Proofs.Documents.Loaded
import Raml.Proofs.Documents.Parts

/-! Types that are declared in a document are filled when it is parsed.

Each library of the document goes through the same phases in its own place. What its types set is
kept in each of them, and so in the library that is parsed.
-/

namespace Raml

open Rules

-----------------------------------------------------------------------------------------
-- Libraries
-----------------------------------------------------------------------------------------

namespace Library

variable {c c₁ c₂ : Path → Change} {directory there : Path} {l l' l'' m m' : Library}
variable {path : List String}

/-- The libraries that are used stay where they are, and their types keep what they set. What is
changed may depend on the directory that a library reads its files from. -/
structure KeepsTypes (c : Path → Change) (directory : Path) (l l' : Library) : Prop where
  location : l'.location = l.location
  types {path : List String} {there : Path} {m : Library}
    (reaches : ReachesAt directory l path there m)
    : ∃ m', ReachesAt directory l' path there m'
        ∧ Keyed.Related (TypeNode.Keeps (c there)) m.types m'.types

/-- What one phase keeps and the next one keeps of that, both keep together. -/
theorem KeepsTypes.trans (composes : ∀ there, (c₁ there).Composes (c₂ there) (c there))
    (h : l.KeepsTypes c₁ directory l') (h' : l'.KeepsTypes c₂ directory l'')
    : l.KeepsTypes c directory l'' where
  location := h'.location.trans h.location
  types reaches := by
    obtain ⟨m', reached, first⟩ := h.types reaches
    obtain ⟨m'', reached, second⟩ := h'.types reached
    refine ⟨m'', reached, (first.trans second).mono fun t t'' related => ?_⟩
    obtain ⟨t', first, second⟩ := related
    exact first.trans (composes _) second

/-- What is kept library by library, each in its own directory, is kept in the tree of them. -/
theorem KeepsTypes.of_parallel {S : Path → Library → Library → Prop} (parallel : Parallel S)
    (h : S directory l l')
    (types : ∀ path there m m', ReachesAt directory l path there m → S there m m'
      → Keyed.Related (TypeNode.Keeps (c there)) m.types m'.types)
    : l.KeepsTypes c directory l' where
  location := parallel.location h
  types reaches := by
    obtain ⟨m', reached, related⟩ := parallel.forward reaches h
    exact ⟨m', reached, types _ _ _ _ reaches related⟩

variable {trait : Path → Trait → Except Error Trait} {file : Path → String → Except Error Library}

/-- Loading a library does not move it. -/
theorem location_loadWith (h : l.loadWith trait file directory = .ok l')
    : l'.location = l.location := by
  rw [loadWith_eq] at h
  obtain ⟨_, -, h⟩ := bind_eq_ok_iff.mp h
  obtain ⟨_, -, h⟩ := bind_eq_ok_iff.mp h
  cases h
  rfl

/-- Libraries in the text are loaded where they are. -/
theorem ReachesAt.loadWith (reaches : ReachesAt directory l path there m)
    (h : l.loadWith trait file directory = .ok l')
    : ∃ m', ReachesAt directory l' path there m' ∧ m.loadWith trait file there = .ok m' := by
  induction reaches generalizing l' with
  | self => exact ⟨l', .self _ _, h⟩
  | @used directory _ l used _ name _ member _ ih =>
      rw [loadWith_eq, loadUses_eq] at h
      obtain ⟨_, -, h⟩ := bind_eq_ok_iff.mp h
      obtain ⟨uses, loads, h⟩ := bind_eq_ok_iff.mp h
      cases h
      obtain ⟨use, member, loads⟩ := (Keyed.related_of_mapM loads).forward member
      obtain ⟨used', loaded, loads⟩ := bind_eq_ok_iff.mp loads
      cases loads
      obtain ⟨m', inside, reached⟩ := ih loaded
      exact ⟨m', .used member (location_loadWith loaded ▸ inside), reached⟩

/-- Loading takes traits and libraries from files and leaves types alone. -/
theorem keepsTypes_of_load {settings : Settings} {source : Source}
    (h : l.load settings source directory = .ok l')
    : l.KeepsTypes (fun _ => {}) directory l' where
  location := location_loadWith h
  types reaches := by
    obtain ⟨m', reached, loads⟩ := reaches.loadWith h
    rw [loadWith_eq] at loads
    obtain ⟨_, -, loads⟩ := bind_eq_ok_iff.mp loads
    obtain ⟨_, -, loads⟩ := bind_eq_ok_iff.mp loads
    cases loads
    exact ⟨_, reached, List.forall₂_same.mpr fun entry _ => ⟨rfl, .refl entry.2⟩⟩

end Library

-----------------------------------------------------------------------------------------
-- Documents
-----------------------------------------------------------------------------------------

/-- A document keeps its directory, and what the types set that its libraries declare. -/
structure Document.KeepsTypes (c : Path → Change) (d d' : Document) : Prop where
  directory : d'.directory = d.directory
  library : d.library.KeepsTypes c d.directory d'.library

theorem Document.KeepsTypes.trans {c c₁ c₂ : Path → Change} {d d' d'' : Document}
    (composes : ∀ there, (c₁ there).Composes (c₂ there) (c there))
    (h : d.KeepsTypes c₁ d') (h' : d'.KeepsTypes c₂ d'')
    : d.KeepsTypes c d'' where
  directory := h'.directory.trans h.directory
  library := h.library.trans composes (h.directory ▸ h'.library)

/-- What holds of annotations in the types that libraries declare, those that are used included. -/
def Document.Annotated (P : Annotations → Prop) (d : Document) : Prop :=
  ∀ path m, d.library.Reaches path m → ∀ entry ∈ m.types,
    entry.2.Throughout fun u => P u.declaration.annotations

/-- A pass that keeps types wherever it comes by keeps those of all libraries. -/
theorem Pass.KeepsTypes.run {P : Annotations → Prop} {c : Path → Change} {p : Pass}
    (keeps : p.KeepsTypes P c) {target : Target} {d d' : Document} (h : p.run target d = .ok d')
    (holds : d.Annotated P)
    : d.KeepsTypes c d' where
  directory := directory_of_run h
  library := by
    refine .of_parallel (parallel_takes p) (takes_of_run h) ?_
    rintro path there m m' reaches ⟨s, target, rfl, rfl, made⟩
    refine (makes_of_onLibrary made).types.mono_of_mem fun name t t' member made => ?_
    exact keeps s _ t (holds path _ reaches.reaches (name, t) member) t' made

/-- Annotations that are valued stand once between their brackets. -/
theorem Rules.bracketed_of_valued {t : TypeNode} (h : valued.All t.leaves)
    : t.Throughout fun u => Annotations.Bracketed u.declaration.annotations := by
  induction t using TypeNode.induct with
  | step t ih =>
      obtain ⟨own, properties⟩ := all_type.mp h
      obtain ⟨unique, applied⟩ := all_annotations.mp own.declaration.annotations
      refine TypeNode.throughout_iff.mpr ⟨⟨unique, fun entry member => ?_⟩, fun key p member => ?_⟩
      · exact (applied entry member).2.1
      · exact ih key p member (properties.2 _ member).2

/-- In a document as it is written, annotations have brackets. -/
theorem Document.bracketed_of_valued {d : Document} (h : valued.All d.allLeaves)
    : d.Annotated Annotations.Bracketed := by
  intro path m reaches entry member
  have types := (all_library.mp (reaches.within.all (all_document.mp h).library)).1.types
  exact Rules.bracketed_of_valued ((all_table.mp types).2 entry member)

-----------------------------------------------------------------------------------------
-- Phases
-----------------------------------------------------------------------------------------

namespace Change

/-- In normal form, properties have lost their marks and annotations their brackets, and no value is
left out. -/
def normal : Change where
  property key := (Property.splitOptional key).1
  annotation := Annotation.stripBrackets
  value v := some (v.getD .null)

/-- When parsing is done, files have been read besides. -/
def parsed (load : Include) : Change := { normal with ofExample := Example.ReadFrom load }

end Change

namespace Document

variable {target : Target} {mediaTypes : Option (List String)} {d n f s d' : Document}

theorem annotated_true (d : Document) : d.Annotated fun _ => True := fun _ _ _ _ _ _ _ => trivial

/-- Up to the normal form types change as the normal form demands, and no further. -/
theorem keepsTypes_of_normalize (h : d.normalize target mediaTypes = .ok n)
    (sound : written.All d.allLeaves)
    : d.KeepsTypes (fun _ => .normal) n := by
  obtain ⟨d₁, properties, h⟩ := bind_eq_ok_iff.mp h
  obtain ⟨d₂, bodies, h⟩ := bind_eq_ok_iff.mp h
  obtain ⟨d₃, values, names⟩ := bind_eq_ok_iff.mp h
  have sound₁ := Pass.leads_normalizeProperties.run target sound d₁ properties
  have sound₂ := (Pass.leads_applyMediaTypes mediaTypes).run target sound₁ d₂ bodies
  have sound₃ := Pass.leads_completeAnnotations.run target sound₂ d₃ values
  have first := Pass.normalizeProperties_keepsTypes.run properties d.annotated_true
  have second := (Pass.applyMediaTypes_keepsTypes mediaTypes).run bodies d₁.annotated_true
  have third := Pass.completeAnnotations_keepsTypes.run values d₂.annotated_true
  have last := Pass.nameAnnotations_keepsTypes.run names (bracketed_of_valued sound₃)
  have unmarked : d.KeepsTypes (fun _ => { property := Change.normal.property }) d₂ :=
    first.trans (fun _ => ⟨fun _ => rfl, fun _ => rfl, fun _ => rfl, Example.Same.trans⟩) second
  have valued : d.KeepsTypes (fun _ => { Change.normal with annotation := id }) d₃ :=
    unmarked.trans (fun _ => ⟨fun _ => rfl, fun _ => rfl, fun _ => rfl, Example.Same.trans⟩) third
  exact valued.trans (fun _ => ⟨fun _ => rfl, fun _ => rfl, fun _ => rfl, Example.Same.trans⟩) last

/-- Filling types in changes nothing that they set. -/
theorem keepsTypes_of_fill (h : n.fill target = .ok f) : n.KeepsTypes (fun _ => {}) f := by
  obtain ⟨l', resolved, h⟩ := bind_eq_ok_iff.mp h
  have first : n.KeepsTypes (fun _ => {}) { n with library := l' } := {
    directory := rfl
    library := .of_parallel Library.parallel_resolve resolved fun _ _ _ _ _ resolved =>
      Library.keeps_of_resolve resolved }
  exact first.trans (fun _ => TypeNode.composes_none)
    (Pass.fillTypes_keepsTypes.run h (annotated_true _))

/-- Examples of types that are declared are read first. -/
theorem keepsTypes_of_materialize {source : Source} {l' : Library}
    (read : d.library.Materializes source d.directory l')
    (filled : (Pass.fillExamples source).run target { d with library := l' } = .ok d')
    : d.KeepsTypes (fun there => { ofExample := Example.ReadFrom (source.include there) }) d' where
  directory := (Pass.directory_of_run filled :)
  library := {
    location := by
      rw [(Pass.parallel_takes _).location (Pass.takes_of_run filled)]
      exact (Library.parallel_materializes source).location read
    types := by
      intro path there m reaches
      obtain ⟨m₁, reached, around, rfl, read⟩ :=
        (Library.parallel_materializes source).forward reaches read
      obtain ⟨m₂, further, s, target, -, same, made⟩ :=
        (Pass.parallel_takes _).forward reached (Pass.takes_of_run filled)
      have ofTypes := Keyed.related_of_mapM (Library.eq_of_materialize read).1
      refine ⟨m₂, further, ?_⟩
      refine (ofTypes.trans (Pass.makes_of_onLibrary made).types).mono fun t t' related => ?_
      obtain ⟨u, read, filled⟩ := related
      rw [← same] at read ⊢
      exact Pass.keeps_of_materialize read filled }

/-- Behind that, files of examples are read. -/
theorem keepsTypes_of_finish {p : Parser} (h : p.finish target s = .ok d')
    (location : s.library.location = none)
    : s.KeepsTypes (fun there => { ofExample := Example.ReadFrom (p.source.include there) }) d' := by
  obtain ⟨d₁, parameters, h⟩ := bind_eq_ok_iff.mp h
  obtain ⟨l', read, filled⟩ := bind_eq_ok_iff.mp h
  have first : s.KeepsTypes (fun _ => {}) d₁ :=
    (Pass.keepsTypes_of_idle fun _ _ _ => rfl).run parameters s.annotated_true
  have here : d₁.library.Materializes p.source d₁.directory l' :=
    ⟨d₁.directory, by rw [first.library.location, location]; rfl, read⟩
  exact first.trans
    (fun _ => ⟨fun _ => rfl, fun _ => rfl, fun _ => rfl, Example.ReadFrom.of_same⟩)
    (keepsTypes_of_materialize here filled)

end Document

namespace Parser

variable {p : Parser} {target : Target} {mediaTypes : Option (List String)} {d₀ d₁ d : Document}

/-- The phases of parsing one after the other come to the change that the parsed library shows. -/
theorem keepsTypes_of_resolve (written : d₀.Written) (loads : p.Loads d₀ d₁)
    (h : p.resolve target mediaTypes d₀ = .ok d)
    : d₁.KeepsTypes (fun there => .parsed (p.source.include there)) d := by
  obtain ⟨n, f, s, phases, -⟩ := phases_of_resolve loads h
  have normal := Document.keepsTypes_of_normalize phases.normal (written.sound_of_loads loads)
  have filled : d₁.KeepsTypes (fun _ => .normal) f :=
    normal.trans (fun _ => ⟨fun _ => rfl, fun _ => rfl, fun _ => rfl, Example.Same.trans⟩)
      (Document.keepsTypes_of_fill phases.filled)
  have substituted : d₁.KeepsTypes (fun _ => .normal) s :=
    filled.trans (fun _ => ⟨fun _ => rfl, fun _ => rfl, fun _ => rfl, Example.Same.trans⟩) <|
      (Pass.keepsTypes_of_idle fun _ _ _ => rfl).run phases.substituted f.annotated_true
  have location : s.library.location = none :=
    substituted.library.location.trans (written.location loads)
  exact substituted.trans
    (fun _ => ⟨fun _ => rfl, fun _ => rfl, fun _ => rfl, Example.ReadFrom.of_same⟩)
    (Document.keepsTypes_of_finish phases.finished location)

/-- What a library declares is kept in another one, files being read from a directory, and so is
what those declare that are loaded with it. -/
def Keeps (p : Parser) (directory : Path) (l l' : Library) : Prop :=
  l.KeepsTypes (fun there => .parsed (p.source.include there)) directory l'
    ∧ ∃ loaded, l.load p.settings p.source directory = .ok loaded
        ∧ loaded.KeepsTypes (fun there => .parsed (p.source.include there)) directory l'

/-- So what is written is kept up to the end, in each library and in its own directory. -/
theorem Keeps.of_resolve (written : d₀.Written) (h : p.resolve target mediaTypes d₀ = .ok d)
    : p.Keeps d₀.directory d₀.library d.library := by
  obtain ⟨d₁, loads⟩ := exists_loads h
  have kept := (keepsTypes_of_resolve written loads h).library
  obtain ⟨loaded, loads, rfl⟩ := loads
  refine ⟨?_, loaded, loads, kept⟩
  exact (Library.keepsTypes_of_load loads).trans
    (fun _ => ⟨fun _ => rfl, fun _ => rfl, fun _ => rfl, Example.ReadFrom.of_same⟩) kept

/-- Whatever is parsed, types are only filled where their declarations leave something unset. -/
theorem keeps_of_parse (p : Parser) (bytes : Bytes) (directory : Path)
    : (∀ d, p.document bytes directory = .ok d
        → ∃ node d₀, p.settings.readNode bytes = .ok node ∧ Decode.document node = .ok d₀
            ∧ p.Keeps directory d₀.library d.library)
      ∧ ∀ l, p.library bytes directory = .ok l
        → ∃ node l₀, p.settings.readNode bytes = .ok node ∧ Decode.library node "" = .ok l₀
            ∧ p.Keeps directory l₀ l := by
  constructor
  · intro d parsed
    obtain ⟨node, read, parsed⟩ := bind_eq_ok_iff.mp parsed
    obtain ⟨d₀, decoded, parsed⟩ := bind_eq_ok_iff.mp parsed
    exact ⟨node, d₀, read, decoded, Keeps.of_resolve (.document decoded directory) parsed⟩
  · intro l parsed
    obtain ⟨node, read, parsed⟩ := bind_eq_ok_iff.mp parsed
    obtain ⟨l₀, decoded, parsed⟩ := bind_eq_ok_iff.mp parsed
    obtain ⟨d, resolved, same⟩ := bind_eq_ok_iff.mp parsed
    cases same
    exact ⟨node, l₀, read, decoded, Keeps.of_resolve (.library decoded directory) resolved⟩

/-- A library with a type that inherits from one in another library. -/
def harvestParts : Bytes :=
  Bytes.ofText <|
    "annotationTypes:\n  source: string\n"
      ++ "uses:\n  fruits:\n    types:\n      Fruit:\n        properties:\n          weight?: number\n"
      ++ "types:\n  Apple:\n    (source): orchard\n    type: fruits.Fruit\n    maxProperties: 9\n"

/-- A document with the same types. -/
def harvest : Bytes := Bytes.ofText "title: Harvest\n" ++ harvestParts

/-- The apple keeps its own annotation, and has it under a name without brackets. -/
theorem keeps_of_parse_harvest
    : (∃ d, ({} : Parser).document harvest ⟨"."⟩ = .ok d
        ∧ (d.library.getType? "Apple").map (fun t => Keyed.keys t.declaration.annotations)
          = some ["source"]
        ∧ ∃ node d₀, ({} : Settings).readNode harvest = .ok node ∧ Decode.document node = .ok d₀
            ∧ ({} : Parser).Keeps ⟨"."⟩ d₀.library d.library)
      ∧ ∃ l, ({} : Parser).library harvestParts ⟨"."⟩ = .ok l
        ∧ (l.getType? "fruits.Fruit").map (fun t => Keyed.keys t.properties) = some ["weight"]
        ∧ ∃ node l₀, ({} : Settings).readNode harvestParts = .ok node
            ∧ Decode.library node "" = .ok l₀ ∧ ({} : Parser).Keeps ⟨"."⟩ l₀ l := by
  constructor
  · have found : ((({} : Parser).document harvest ⟨"."⟩).toOption.any fun d =>
        (d.library.getType? "Apple").map (fun t => Keyed.keys t.declaration.annotations)
          = some ["source"]) = true := by
      rw [harvest, harvestParts]
      simp only [Bytes.ofText_append]
      repeat rw [Bytes.ofText_ofList]
      decide +kernel
    obtain ⟨d, parsed, named⟩ := (Option.any_eq_true _ _).mp found
    have parsed := ok_of_toOption parsed
    exact ⟨d, parsed, of_decide_eq_true named, (keeps_of_parse {} harvest ⟨"."⟩).1 d parsed⟩
  · have found : ((({} : Parser).library harvestParts ⟨"."⟩).toOption.any fun l =>
        (l.getType? "fruits.Fruit").map (fun t => Keyed.keys t.properties) = some ["weight"])
          = true := by
      rw [harvestParts]
      simp only [Bytes.ofText_append]
      repeat rw [Bytes.ofText_ofList]
      decide +kernel
    obtain ⟨l, parsed, named⟩ := (Option.any_eq_true _ _).mp found
    have parsed := ok_of_toOption parsed
    exact ⟨l, parsed, of_decide_eq_true named, (keeps_of_parse {} harvestParts ⟨"."⟩).2 l parsed⟩

end Parser

end Raml
