import Raml.Proofs.Documents.Stages

/-! The stages that read the files of examples: first those of declared types, in every library with
its own directory, then all others as the document is walked.
-/

namespace Raml

variable {allowed : Error → Prop} {P Q : Spot → Prop} {source source' : Source}

/-- Two sources read the examples of a type alike if they read each of them so. -/
theorem TypeNode.materialize_alike {load load' : Include} {E : Example → Prop} {t : TypeNode}
    (each : ∀ e ∈ t.allExamples,
      Alike allowed (e.materialize load t.kind) (e.materialize load' t.kind) E)
    : Alike allowed (t.materialize load) (t.materialize load') fun t' =>
        ∃ example? examples, t' = t.withExamples example? examples
          ∧ ∀ e ∈ t'.allExamples, E e :=
  TypeNode.mapExamplesM_alike each

/-- What is known of a library once the examples of its declared types are read, and when two
sources come to the same. -/
structure Reads (allowed : Error → Prop) (source source' : Source) (P Q : Spot → Prop) : Prop where
  declared (pos : Position) (t : TypeNode) (role : pos.role = .declared) (h : P ⟨pos, .type t⟩)
    : Alike allowed (t.materialize (source.include pos.directory))
        (t.materialize (source'.include pos.directory)) fun t => Q ⟨pos, .type t⟩
  others (spot : Spot) (role : spot.pos.role ≠ .declared) (h : P spot) : Q spot

namespace Library

/-- The declared types of a library are read first, and then the libraries that it uses. -/
theorem materialize_eq (source : Source) (directory : Path) (l : Library)
    : l.materialize source directory
      = (l.types.mapM fun (name, t) => do
          return (name, ← t.materialize (source.include (l.location.getD directory))))
        >>= fun types => materializeUses source (l.location.getD directory) l.uses
        >>= fun uses => .ok { l with types, uses } := by
  cases l
  rfl

theorem materializeUses_eq (source : Source) (directory : Path) (uses : Uses)
    : materializeUses source directory uses
      = changeUses (fun _ used => used.materialize source directory) uses := by
  induction uses with
  | nil => rfl
  | cons entry uses ih =>
      obtain ⟨name, use⟩ := entry
      rw [materializeUses, ih]
      cases use with
      | external path =>
          rw [changeUses_external]
          rfl
      | loaded used =>
          rw [changeUses_loaded, materializeUse, bind_assoc]
          rfl

/-- Declared types are read from the directory of their library. -/
theorem materializeTypes_alike (reads : Reads allowed source source' P Q) (pos : Position)
    (role : pos.role = .declared) {types : Types} (h : ∀ entry ∈ types, P ⟨pos, .type entry.2⟩)
    : Alike allowed
        (types.mapM fun (name, t) => do
          return (name, ← t.materialize (source.include pos.directory)))
        (types.mapM fun (name, t) => do
          return (name, ← t.materialize (source'.include pos.directory)))
        fun types => ∀ entry ∈ types, Q ⟨pos, .type entry.2⟩ :=
  Alike.mapM fun entry member =>
    (reads.declared pos entry.2 role (h entry member)).bind fun _ h => Alike.ok h

mutual

/-- By induction on libraries, each of which may set another directory. -/
theorem materialize_alike (reads : Reads allowed source source' P Q) (pos : Position)
    {directory : Path}
    : ∀ l : Library, l.location.getD directory = pos.directory → (∀ spot ∈ l.spots pos, P spot)
      → Alike allowed (l.materialize source directory) (l.materialize source' directory) fun l' =>
          l'.location = l.location ∧ ∀ spot ∈ l'.spots pos, Q spot
  | ⟨_, _, types, _, _, _, _, _, uses, location⟩, here, h => by
      obtain ⟨types, traits, annotationTypes, uses⟩ := forall_spots_iff.mp h
      rw [materialize_eq, materialize_eq]
      simp only [here]
      refine (materializeTypes_alike reads (pos.inRole .declared) rfl types).bind
        fun _ types => ?_
      refine (materializeUses_alike reads _ uses).bind fun _ uses => Alike.ok ⟨rfl, ?_⟩
      refine forall_spots_iff.mpr ⟨types, fun entry member part inside => ?_,
        fun entry member => ?_, uses⟩
      · exact reads.others _ nofun (traits entry member part inside)
      · exact reads.others _ nofun (annotationTypes entry member)

theorem materializeUses_alike (reads : Reads allowed source source' P Q) {pos : Position}
    : ∀ uses : Uses, (∀ spot ∈ useSpots pos uses, P spot)
      → Alike allowed (materializeUses source pos.directory uses)
          (materializeUses source' pos.directory uses) fun uses =>
            ∀ spot ∈ useSpots pos uses, Q spot
  | [], _ => Alike.ok (by simp [useSpots])
  | (_, use) :: uses, h => by
      obtain ⟨first, rest⟩ := List.forall_mem_append.mp h
      refine (materializeUse_alike reads use first).bind fun _ first => ?_
      refine (materializeUses_alike reads uses rest).bind fun _ rest => Alike.ok ?_
      exact List.forall_mem_append.mpr ⟨first, rest⟩

theorem materializeUse_alike (reads : Reads allowed source source' P Q) {pos : Position}
    : ∀ use : Use, (∀ spot ∈ use.spots pos, P spot)
      → Alike allowed (materializeUse source pos.directory use)
          (materializeUse source' pos.directory use) fun use => ∀ spot ∈ use.spots pos, Q spot
  | .external _, _ => Alike.ok (by simp [Use.spots])
  | .loaded l, h => by
      refine (materialize_alike reads (pos.enter l) l rfl h).bind fun l' h => Alike.ok ?_
      have same : pos.enter l' = pos.enter l := by simp [Position.enter, h.1]
      rw [Use.spots, same]
      exact h.2

end

end Library

/-- A library that is loaded stays in its place. -/
theorem Library.location_load {settings : Settings} {source : Source} {directory : Path}
    {l l' : Library} (h : l.load settings source directory = .ok l')
    : l'.location = l.location := by
  cases l
  obtain ⟨_, _, h⟩ := bind_eq_ok_iff.mp h
  obtain ⟨_, _, h⟩ := bind_eq_ok_iff.mp h
  cases h
  rfl

namespace Parser

/-- The document as it is when examples are filled in: everything that can be found without files
has been, and the examples of declared types have been read. -/
def prepare (p : Parser) (target : Target) (mediaTypes : Option (List String)) (d : Document)
    : Except Error Document := do
  let d ← d.prepare target mediaTypes
  return { d with library := ← d.library.materialize p.source d.directory }

/-- Every spot of a document is one of a document in which no example has been read. -/
theorem prepare_alike {M : Demands} (lasting : M.Lasting) {before : Properties → Prop}
    (normal : ∀ ps ps', before ps → Properties.normalize ps = .ok ps' → M.ofProperties ps')
    {p p' : Parser} (reads : Reads allowed p.source p'.source (Spot.Meets M) Q)
    (early : ∀ e, Error.Early e → allowed e) (target : Target) (mediaTypes : Option (List String))
    {d : Document} (root : d.library.location = none)
    (h : ∀ spot ∈ d.spots, spot.Meets (M.withProperties before))
    : Alike allowed (p.prepare target mediaTypes d) (p'.prepare target mediaTypes d) fun d' =>
        d'.directory = d.directory ∧ d'.library.location = d.library.location
          ∧ ∀ spot ∈ d'.spots, Q spot := by
  have prepared := (Document.prepare_alike lasting normal target mediaTypes h).allow early
  refine prepared.bind fun d' ⟨directory, location, spots⟩ => ?_
  obtain ⟨library, resources, parameters⟩ := Document.forall_spots_iff.mp spots
  have here : d'.library.location.getD d'.directory = d'.position.directory := by
    simp [location, root, Document.position]
  refine (Library.materialize_alike reads d'.position d'.library here library).bind
    fun l ⟨location', library⟩ => Alike.ok ⟨directory, location'.trans location, ?_⟩
  exact Document.forall_spots_iff.mpr ⟨library,
    fun part member => reads.others _ nofun (resources part member),
    reads.others _ nofun parameters⟩

/-- Demands are met in a document that is prepared if reading a file does not affect them. -/
theorem prepare_meets {M : Demands} (lasting : M.Lasting) {before : Properties → Prop}
    (normal : ∀ ps ps', before ps → Properties.normalize ps = .ok ps' → M.ofProperties ps')
    (read : ∀ pos load kind e e', M.ofExample pos e → Example.materialize load kind e = .ok e'
      → M.ofExample pos e')
    {p : Parser} {target : Target} {mediaTypes : Option (List String)} {d d' : Document}
    (root : d.library.location = none)
    (h : ∀ spot ∈ d.spots, spot.Meets (M.withProperties before))
    (prepared : p.prepare target mediaTypes d = .ok d')
    : ∀ spot ∈ d'.spots, spot.Meets M := by
  have reads : Reads (fun _ => True) p.source p.source (Spot.Meets M) (Spot.Meets M) := by
    refine ⟨fun pos t _ meets => ?_, fun _ _ h => h⟩
    obtain ⟨examples, properties, inside⟩ := meets
    refine (TypeNode.materialize_alike (E := M.ofExample pos) fun e member => ?_).mono ?_
    · exact ⟨rfl, fun e' ok => read _ _ _ e e' (examples e member) ok, fun _ _ => trivial⟩
    · rintro _ ⟨_, _, rfl, examples⟩
      exact .intro examples properties inside
  have alike := prepare_alike lasting normal reads (fun _ _ => trivial) target mediaTypes root h
  exact (alike.result d' prepared).2.2

/-- What is done to a document whose libraries are loaded. -/
def complete (p : Parser) (target : Target) (mediaTypes : Option (List String)) (d : Document)
    : Except Error Document := do
  let d ← p.prepare target mediaTypes d
  let d ← (Pass.fillExamples p.source).run target d
  Review.run p.settings target d
  return d

/-- First everything is filled in, and then the document is reviewed. -/
theorem complete_eq_review (p : Parser) (target : Target) (mediaTypes : Option (List String))
    (d : Document)
    : p.complete target mediaTypes d
      = (p.prepare target mediaTypes d >>= (Pass.fillExamples p.source).run target)
        >>= fun d' => Review.run p.settings target d' >>= fun _ => .ok d' := by
  rw [bind_assoc]
  rfl

/-- Libraries are loaded first, and everything else is done to the document with these. -/
theorem resolve_eq (p : Parser) (target : Target) (mediaTypes : Option (List String))
    (d : Document)
    : p.resolve target mediaTypes d
      = d.library.load p.settings p.source d.directory >>= fun library =>
          p.complete target mediaTypes { d with library } := by
  simp only [resolve, complete, prepare, Document.prepare, bind_assoc, pure_bind]

/-- The document with the libraries loaded that it names. -/
def Loads (p : Parser) (d d' : Document) : Prop :=
  ∃ library, d.library.load p.settings p.source d.directory = .ok library ∧ d' = { d with library }

/-- So what a document comes to is decided once its libraries are loaded. -/
theorem resolve_of_loads {p : Parser} {d d' : Document} (loads : p.Loads d d')
    (target : Target) (mediaTypes : Option (List String))
    : p.resolve target mediaTypes d = p.complete target mediaTypes d' := by
  obtain ⟨library, loaded, rfl⟩ := loads
  rw [resolve_eq, loaded, ok_bind]

end Parser

end Raml
