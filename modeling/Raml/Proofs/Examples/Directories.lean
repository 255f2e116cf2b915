import Raml.Proofs.Documents.Files
import Raml.Proofs.Examples.Agreement

/-! From which directories the files of examples are read.

Those of declared types are read where the types are declared. Whatever a library shares may be read
once more from any library around it: a property that is inherited there, a trait that is used
there. So the files that count are those that the paths of examples name as seen from one of these
directories, and a document depends on no others.
-/

namespace Raml

variable {allowed : Error → Prop} {source source' : Source}
variable {R : Path → String → Prop} {T : Option Value → Prop} {pos : Position}

-----------------------------------------------------------------------------------------
-- What is known of examples
-----------------------------------------------------------------------------------------

namespace Demands

/-- Files that are still to be read are read from directories with `R`, and values that have been
read have `T`. -/
def reads (R : Path → String → Prop) (T : Option Value → Prop) : Demands :=
  .ofExamples fun pos e =>
    (∀ file, e.pendingPath? = some file → ∀ directory ∈ pos.reach, R directory file)
      ∧ (e.loaded = true → T e.value)

/-- The same, once the examples of declared types have been read. -/
def declaredRead (R : Path → String → Prop) (T : Option Value → Prop) : Demands :=
  .ofExamples fun pos e =>
    (∀ file, e.pendingPath? = some file
      → pos.role ≠ .declared ∧ ∀ directory ∈ pos.reach, R directory file)
      ∧ (e.loaded = true → T e.value)

/-- All files have been read. -/
def allRead (T : Option Value → Prop) : Demands :=
  .ofExamples fun _ e => e.pendingPath? = none ∧ (e.loaded = true → T e.value)

/-- Whoever reaches further reads from more directories. -/
theorem lasting_reads : (reads R T).Lasting := by
  refine lasting_ofExamples (fun _ _ _ => id) fun pos further e within h => ⟨?_, h.2⟩
  exact fun file pending directory near => h.1 file pending directory (within near)

/-- Once all files are read it does not matter how far examples are passed on. -/
theorem lasting_allRead : (allRead T).Lasting :=
  lasting_ofExamples (fun _ _ _ => id) fun _ _ _ _ => id

end Demands

/-- The properties of a declared type are shared. -/
theorem Role.inner_ne_declared (role : Role) : role.inner ≠ .declared := by
  cases role <;> exact nofun

/-- Only declared types have other examples once these are read. -/
theorem TypeNode.Meets.declaredRead {t : TypeNode} (meets : t.Meets (.reads R T) pos)
    (role : pos.role ≠ .declared)
    : t.Meets (.declaredRead R T) pos := by
  induction t using TypeNode.induct generalizing pos with
  | step t ih =>
      obtain ⟨examples, -, inside⟩ := meets
      refine .intro (fun e member => ?_) trivial fun key p member =>
        ih key p member (inside key p member) (Role.inner_ne_declared _)
      obtain ⟨pending, loaded⟩ := examples e member
      exact ⟨fun file h => ⟨role, pending file h⟩, loaded⟩

/-- Only types that are declared have been read by then. -/
theorem Part.Meets.declaredRead {part : Part} (meets : part.Meets (.reads R T) pos)
    (role : pos.role ≠ .declared)
    : part.Meets (.declaredRead R T) pos := by
  cases part with
  | type t => exact TypeNode.Meets.declaredRead meets role
  | properties ps =>
      exact ⟨trivial, fun key p member =>
        (meets.2 key p member).declaredRead (Role.inner_ne_declared _)⟩

-----------------------------------------------------------------------------------------
-- One file
-----------------------------------------------------------------------------------------

/-- Two sources have the same files at the paths that count. -/
structure Source.Agree (allowed : Error → Prop) (source source' : Source) (R : Path → String → Prop)
    (T : Option Value → Prop) : Prop where
  reading (directory : Path) (file : String) (kind : Kind) (h : R directory file)
    : Alike allowed (source.include directory file kind) (source'.include directory file kind)
        fun v => T (some v)

/-- Where the same bytes are read, the same value is made of them. -/
theorem Source.include_agrees {directory : Path} {file : String} {kind : Kind}
    (same : source.read (directory.join ⟨file⟩) = source'.read (directory.join ⟨file⟩))
    (early : ∀ e, Error.Early e → allowed e)
    (missing : ∀ fault, allowed (.io (directory.join ⟨file⟩) fault))
    : Alike allowed (source.include directory file kind) (source'.include directory file kind)
        fun _ => True := by
  unfold Source.include
  dsimp only
  rw [← same]
  cases source.read (directory.join ⟨file⟩) with
  | error fault => exact Alike.fail (missing fault)
  | ok bytes =>
      dsimp only
      split
      · exact Alike.ok trivial
      · split
        · exact (Value.ofNode_early _).allow early
        · exact Alike.ok trivial

/-- The same, whichever errors the contents of a file may lead to. -/
theorem Source.include_alike {directory : Path} {file : String} {kind : Kind}
    (same : source.read (directory.join ⟨file⟩) = source'.read (directory.join ⟨file⟩))
    (inner : ∀ e, Error.Inner e → allowed e)
    (missing : ∀ fault, allowed (.io (directory.join ⟨file⟩) fault))
    : Alike allowed (source.include directory file kind) (source'.include directory file kind)
        fun _ => True :=
  include_agrees same (fun e early => inner e early.inner) missing

/-- An example is read from its file, unless it is there already. -/
theorem Example.materialize_alike (pos : Position) (kind : Kind)
    (agree : Source.Agree allowed source source' R T) {directory : Path} {e : Example}
    (pending : ∀ file, e.pendingPath? = some file → R directory file)
    (loaded : e.loaded = true → T e.value)
    : Alike allowed (e.materialize (source.include directory) kind)
        (e.materialize (source'.include directory) kind) ((Demands.allRead T).ofExample pos) := by
  unfold Example.materialize
  cases path : e.pendingPath? with
  | none => exact Alike.ok ⟨path, loaded⟩
  | some file =>
      refine (agree.reading directory file kind (pending file path)).bind fun v read => ?_
      exact Alike.ok ⟨by simp [Example.pendingPath?], fun _ => read⟩

/-- The value of an example is the same from both sources. -/
theorem Example.valueOf?_alike (agree : Source.Agree allowed source source' R T) {directory : Path}
    {kind : Kind} {e : Example} (pending : ∀ file, e.pendingPath? = some file → R directory file)
    : Alike allowed (e.valueOf? (source.include directory) kind)
        (e.valueOf? (source'.include directory) kind) fun _ => True := by
  unfold Example.valueOf?
  cases path : e.pendingPath? with
  | none => exact Alike.ok trivial
  | some file =>
      exact Alike.map ((agree.reading directory file kind (pending file path)).mono
        fun _ _ => trivial)

-----------------------------------------------------------------------------------------
-- Declared types
-----------------------------------------------------------------------------------------

/-- The examples of declared types are read from the directories of their own libraries. -/
theorem reads_declared (agree : Source.Agree allowed source source' R T)
    : Reads allowed source source' (Spot.Meets (.reads R T)) (Spot.Meets (.declaredRead R T)) where
  declared pos t role meets := by
    obtain ⟨examples, -, inside⟩ := meets
    have each (e : Example) (member : e ∈ t.allExamples) :=
      Example.materialize_alike pos t.kind agree
        (fun file pending => (examples e member).1 file pending _ pos.directory_mem_reach)
        (examples e member).2
    refine (TypeNode.materialize_alike each).mono ?_
    rintro _ ⟨example?, examples, rfl, read⟩
    -- The types of its properties are not declared ones, so their examples are not read here.
    refine .intro (fun e member => ?_) trivial fun key p member =>
      (inside key p member).declaredRead (Role.inner_ne_declared _)
    obtain ⟨done, loaded⟩ := read e member
    exact ⟨fun file pending => (nomatch done.symm.trans pending), loaded⟩
  others spot role meets := Part.Meets.declaredRead meets role

-----------------------------------------------------------------------------------------
-- All other types
-----------------------------------------------------------------------------------------

/-- What stands in a library of the directory, or is lent to it. -/
def TypeNode.Near (R : Path → String → Prop) (T : Option Value → Prop) (directory : Path)
    (t : TypeNode) : Prop :=
  ∃ pos : Position, t.Meets (.declaredRead R T) pos
    ∧ (pos.role ≠ .declared → directory ∈ pos.reach) ∧ directory ∈ pos.inner.reach

namespace TypeNode

variable {t : TypeNode} {directory : Path}

/-- A type is near the library in which it stands. -/
theorem Meets.near (meets : t.Meets (.declaredRead R T) pos)
    : t.Near R T pos.directory :=
  ⟨pos, meets, fun _ => pos.directory_mem_reach, pos.inner.directory_mem_reach⟩

/-- The file of an example is read from a directory that the demand speaks of. -/
theorem Near.pending (near : t.Near R T directory) {e : Example} (member : e ∈ t.allExamples)
    {file : String} (pending : e.pendingPath? = some file)
    : R directory file := by
  obtain ⟨pos, ⟨examples, -, -⟩, here, -⟩ := near
  obtain ⟨role, reach⟩ := (examples e member).1 file pending
  exact reach directory (here role)

/-- What is near stays near inside. -/
theorem Near.property (near : t.Near R T directory) {key : String} {p : Property}
    (member : (key, p) ∈ t.properties)
    : p.type.Near R T directory := by
  obtain ⟨pos, ⟨-, -, inside⟩, -, inner⟩ := near
  refine ⟨pos.inner, inside key p member, fun _ => inner, ?_⟩
  rwa [Position.inner_inner]

/-- A declared type that is found by name is near, in whichever library it is declared. -/
theorem near_of_getType? {l : Library} (h : ∀ spot ∈ l.spots pos, spot.Meets (.declaredRead R T))
    {name : String} (found : l.getType? name = some t)
    : t.Near R T pos.directory := by
  obtain ⟨within, meets, chain⟩ := l.type_of_getType? h found
  exact ⟨_, meets, fun role => absurd rfl role, chain List.mem_cons_self⟩

/-- A derivation comes by no other types than those of the library or lent to it. -/
theorem Near.visits {l : Library} (h : ∀ spot ∈ l.spots pos, spot.Meets (.declaredRead R T))
    {load : Include} {u : TypeNode} (visits : Derivation.Visits load l.getType? t u)
    (near : t.Near R T pos.directory)
    : u.Near R T pos.directory := by
  induction visits with
  | self => exact near
  | base _ _ found _ ih => exact ih (near_of_getType? h found)
  | property _ member _ ih => exact ih (near.property member)

end TypeNode

/-- The same value is derived, and it replaces no example. -/
theorem TypeNode.addDerived_alike {load load' : Include} {declared : String → Option TypeNode}
    {names : List String} {t : TypeNode}
    (derived : Alike allowed (Derivation.derive load declared names t)
      (Derivation.derive load' declared names t) fun _ => True)
    (read : ∀ e ∈ t.allExamples, (Demands.allRead T).ofExample pos e)
    : Alike allowed (t.addDerived load declared names) (t.addDerived load' declared names)
        fun result => ∀ e ∈ result.1.allExamples, (Demands.allRead T).ofExample pos e := by
  unfold TypeNode.addDerived
  cases t.hasExamples with
  | true => exact Alike.ok read
  | false =>
      refine derived.bind fun v? _ => ?_
      cases v? with
      | none => exact Alike.ok read
      | some v =>
          refine Alike.ok fun e member => ?_
          have made : e = .ofValue v := by simpa [allExamples] using member
          rw [made]
          refine ⟨rfl, ?_⟩
          simp [Example.ofValue, Example.empty]

/-- Wherever a type stands, two sources come to the same for its examples and for what it derives.
-/
theorem Pass.exampleOf_alike (agree : Source.Agree allowed source source' R T) {scope : Scope}
    (around : scope.At (Spot.Meets (.declaredRead R T)) pos) {t : TypeNode}
    (meets : t.Meets (.declaredRead R T) pos)
    : Alike allowed (exampleOf source scope t) (exampleOf source' scope t) fun t =>
        ∀ e ∈ t.allExamples, (Demands.allRead T).ofExample pos e := by
  have near := meets.near
  obtain ⟨examples, -, properties⟩ := meets
  have each (e : Example) (member : e ∈ t.allExamples) :=
    Example.materialize_alike pos t.kind agree
      (fun file pending => around.directory ▸ near.pending member pending) (examples e member).2
  refine (TypeNode.materialize_alike each).bind fun t ⟨example?, named, same, read⟩ => ?_
  -- Its own examples have been read by now, but a derivation may still meet others.
  have inside : t.Meets (.declaredRead R T) pos := by
    subst same
    refine .intro (fun e member => ?_) trivial properties
    obtain ⟨done, loaded⟩ := read e member
    exact ⟨fun file pending => (nomatch done.symm.trans pending), loaded⟩
  have sees (u : TypeNode) (visits : Derivation.Visits (source.include scope.directory)
      scope.library.getType? t u)
      : Derivation.Sees allowed (source.include scope.directory) (source'.include scope.directory)
        scope.library.getType? scope.library.getType? scope.library.typeNames
        scope.library.typeNames u := by
    have near := inside.near.visits around.library visits
    refine ⟨fun e member => Example.valueOf?_alike agree fun file pending => ?_, fun _ _ => rfl⟩
    exact around.directory ▸ near.pending member pending
  exact (TypeNode.addDerived_alike (Derivation.derive_alike sees) read).bind
    fun result read => Alike.ok read

/-- The pass reads all examples that are left, and what it derives comes from what it has read. -/
theorem Pass.fillExamples_carries (agree : Source.Agree allowed source source' R T)
    : Carries allowed (Spot.Meets (.declaredRead R T)) (Spot.Meets (.allRead T))
        (fillExamples source) (fillExamples source') := by
  refine carries_ofHooks Demands.lasting_allRead fun scope => ?_
  exact ⟨fun pos t around meets => exampleOf_alike agree around meets,
    fun ps _ => Alike.ok trivial, fun _ _ => Alike.ok trivial⟩

/-- Before it is reviewed, a document depends on no files but those that are read from the directories
with `R`. -/
theorem Parser.filled_alike {p p' : Parser} (agree : Source.Agree allowed p.source p'.source R T)
    (early : ∀ e, Error.Early e → allowed e) (target : Target) (mediaTypes : Option (List String))
    {d : Document} (root : d.library.location = none) (h : ∀ spot ∈ d.spots, spot.Meets (.reads R T))
    : Alike allowed (p.prepare target mediaTypes d >>= (Pass.fillExamples p.source).run target)
        (p'.prepare target mediaTypes d >>= (Pass.fillExamples p'.source).run target) fun d' =>
          ∀ spot ∈ d'.spots, spot.Meets (.allRead T) := by
  refine (prepare_alike Demands.lasting_reads (fun _ _ (_ : True) _ => trivial)
    (reads_declared agree) early target mediaTypes root h).bind fun d₁ ⟨_, _, spots⟩ => ?_
  exact ((Pass.fillExamples_carries agree).run target spots).mono fun d₂ ⟨_, _, spots⟩ => spots

/-- Nor does the review depend on others. -/
theorem Parser.complete_alike {p p' : Parser} (agree : Source.Agree allowed p.source p'.source R T)
    (settings : p.settings = p'.settings) (inner : ∀ e, Error.Inner e → allowed e)
    (target : Target) (mediaTypes : Option (List String)) {d : Document}
    (root : d.library.location = none) (h : ∀ spot ∈ d.spots, spot.Meets (.reads R T))
    : Alike allowed (p.complete target mediaTypes d) (p'.complete target mediaTypes d) fun d' =>
        ∀ spot ∈ d'.spots, spot.Meets (.allRead T) := by
  rw [complete_eq_review, complete_eq_review, ← settings]
  refine (filled_alike agree (fun e early => inner e early.inner) target mediaTypes root h).bind
    fun d' spots => ?_
  exact ((Review.run_inner p.settings target d').allow inner).bind fun _ _ => Alike.ok spots

-----------------------------------------------------------------------------------------
-- Documents
-----------------------------------------------------------------------------------------

namespace Document

/-- An example in the document names the file, and its path may be seen from the directory: that of
the library in which the example is written or, if it is shared, that of a library around. -/
def ReadFrom (d : Document) (directory : Path) (file : String) : Prop :=
  ∃ e pos, d.HasExample e pos ∧ e.pendingPath? = some file ∧ directory ∈ pos.reach

/-- An example that names the file is written in a library with the directory. -/
def WrittenIn (d : Document) (directory : Path) (file : String) : Prop :=
  ∃ e pos, d.HasExample e pos ∧ e.pendingPath? = some file ∧ directory = pos.directory

/-- Where an example that names a file is shared, all libraries around have the same directory. -/
def Sheltered (d : Document) : Prop :=
  ∀ e pos, d.HasExample e pos → e.pendingPath? ≠ none → ∀ directory ∈ pos.reach,
    directory = pos.directory

/-- In a sheltered document files are read from where they are written. -/
theorem Sheltered.readFrom_iff {d : Document} (sheltered : d.Sheltered) {directory : Path}
    {file : String}
    : d.ReadFrom directory file ↔ d.WrittenIn directory file := by
  constructor
  · rintro ⟨e, pos, stands, pending, near⟩
    refine ⟨e, pos, stands, pending, sheltered e pos stands ?_ directory near⟩
    rw [pending]
    exact nofun
  · rintro ⟨e, pos, stands, pending, rfl⟩
    exact ⟨e, pos, stands, pending, pos.directory_mem_reach⟩

/-- A value is in one of the files that count, or has been read from a file before. -/
def Offers (d : Document) (source : Source) (v? : Option Value) : Prop :=
  (∃ directory file kind v, d.ReadFrom directory file
    ∧ source.include directory file kind = .ok v ∧ v? = some v)
  ∨ ∃ e pos, d.HasExample e pos ∧ e.loaded = true ∧ v? = e.value

/-- An error for a file is about one of those that count. -/
def Misses (d : Document) (e : Error) : Prop :=
  ∀ path fault, e = .io path fault
    → ∃ directory file, d.ReadFrom directory file ∧ path = directory.join ⟨file⟩

end Document

/-- A document depends on no files but those that its examples name, as seen from the directory of
the library in which the example is written or, if it is shared, of a library around that one. No
other path is missed, and all examples are read from there. Where libraries that share such examples
have the directory of those around, only the directory in which an example is written counts. -/
theorem Parser.resolve_reads {p p' : Parser} (target : Target) (mediaTypes : Option (List String))
    {d₀ d : Document} (loads : p.Loads d₀ d) (loads' : p'.Loads d₀ d)
    (settings : p.settings = p'.settings) (root : d₀.library.location = none)
    (same : ∀ directory file, d.ReadFrom directory file
      → p.source.read (directory.join ⟨file⟩) = p'.source.read (directory.join ⟨file⟩))
    : Alike d.Misses (p.resolve target mediaTypes d₀) (p'.resolve target mediaTypes d₀)
        (fun d' => ∀ e pos, d'.HasExample e pos
          → e.pendingPath? = none ∧ (e.loaded = true → d.Offers p.source e.value))
      ∧ (d.Sheltered → ∀ directory file,
          d.ReadFrom directory file ↔ d.WrittenIn directory file) := by
  refine ⟨?_, fun sheltered directory file => sheltered.readFrom_iff⟩
  rw [resolve_of_loads loads, resolve_of_loads loads']
  have inner (e : Error) (h : e.Inner) : d.Misses e := fun path fault same =>
    absurd same (h path fault)
  have agree : Source.Agree d.Misses p.source p'.source d.ReadFrom (d.Offers p.source) := by
    refine ⟨fun directory file kind counts => ?_⟩
    have missing (fault : FileFault) : d.Misses (.io (directory.join ⟨file⟩) fault) := by
      rintro _ _ ⟨⟩
      exact ⟨directory, file, counts, rfl⟩
    refine (Source.include_alike (same directory file counts) inner missing).known.mono ?_
    exact fun v read => Or.inl ⟨directory, file, kind, v, counts, read, rfl⟩
  have start : ∀ spot ∈ d.spots, spot.Meets (.reads d.ReadFrom (d.Offers p.source)) := by
    refine Document.meets_of_examples (fun _ => trivial) fun e pos stands => ⟨?_, ?_⟩
    · exact fun file pending directory near => ⟨e, pos, stands, pending, near⟩
    · exact fun loaded => Or.inr ⟨e, pos, stands, loaded, rfl⟩
  have location : d.library.location = none := by
    obtain ⟨library, loaded, rfl⟩ := loads
    exact (Library.location_load loaded).trans root
  refine (complete_alike agree settings inner target mediaTypes location start).mono ?_
  exact fun d' spots e pos stands => stands.meets spots

-----------------------------------------------------------------------------------------
-- A picture in a library
-----------------------------------------------------------------------------------------

/-- A picture that is in a file. -/
def picture : TypeNode := (TypeNode.ofName "file").withExamples (some (.ofPath "logo.png")) []

/-- A document with a page that a library in the directory `libs` declares. -/
def site (page : TypeNode) : Document :=
  { library := { Library.empty with
      types := [("Home", .ofName "assets.Page")]
      uses := [("assets", .loaded { Library.empty with
        types := [("Page", page)], location := some ⟨"libs"⟩ })] } }

/-- There is nothing to load. -/
theorem loads_site (p : Parser) (page : TypeNode) : p.Loads (site page) (site page) :=
  ⟨_, rfl, rfl⟩

/-- Where the library declares its page. -/
def pagePosition : Position := { directory := ⟨"libs"⟩, outer := [⟨""⟩], role := .declared }

/-- A picture has a single example, which stands with it. -/
theorem hasExample_picture {e : Example} {place pos : Position}
    (h : picture.HasExample e place pos)
    : e = .ofPath "logo.png" ∧ place = pos := by
  cases h with
  | own member => exact ⟨List.mem_singleton.mp member, rfl⟩
  | property member => cases member

/-- All that the site has examples of is the page. -/
theorem hasExample_site {page : TypeNode} {e : Example} {place : Position}
    (h : (site page).HasExample e place)
    : page.HasExample e place pagePosition := by
  have bare (name : String) (pos : Position) : ¬(TypeNode.ofName name).HasExample e place pos := by
    intro h
    cases h with
    | own member => cases member
    | property member => cases member
  obtain ⟨spot, member, inside⟩ := h
  rcases member with _ | ⟨_, _ | ⟨_, _ | ⟨_, member⟩⟩⟩
  · exact absurd inside (bare _ _)
  · exact inside
  · obtain ⟨_, _, member, _⟩ := inside
    cases member
  · cases member

/-- A parser that finds an empty file under each of the paths. -/
def shelf (paths : List String) : Parser :=
  { source := { Source.empty with
      read := fun path => if path.text ∈ paths then .ok [] else .error (.notKept path) } }

/-- The logo of the library is read from the directory of the library. -/
theorem readFrom_picture {directory : Path} {file : String}
    (h : (site picture).ReadFrom directory file)
    : directory = ⟨"libs"⟩ ∧ file = "logo.png" := by
  obtain ⟨e, place, stands, pending, near⟩ := h
  obtain ⟨rfl, rfl⟩ := hasExample_picture (hasExample_site stands)
  exact ⟨List.mem_singleton.mp near, (Option.some.inj pending).symm⟩

/-- A picture is a declared type with an example of its own. It is read from the directory of the
library, and another file of the same name does not matter. -/
theorem picture_reads
    : (site picture).Sheltered
      ∧ ((shelf ["libs/logo.png"]).resolve .api none (site picture)).isOk = true
      ∧ (shelf ["libs/logo.png"]).resolve .api none (site picture)
        = (shelf ["libs/logo.png", "logo.png"]).resolve .api none (site picture) := by
  have sheltered : (site picture).Sheltered := by
    intro e place stands _ directory near
    obtain ⟨rfl, rfl⟩ := hasExample_picture (hasExample_site stands)
    exact List.mem_singleton.mp near
  have reads := Parser.resolve_reads .api none (loads_site (shelf ["libs/logo.png"]) picture)
    (loads_site (shelf ["libs/logo.png", "logo.png"]) picture) rfl rfl ?_
  · exact ⟨sheltered, by decide +kernel, reads.1.same⟩
  · intro directory file counts
    obtain ⟨rfl, rfl⟩ := readFrom_picture counts
    decide +kernel

/-- A page that shows the picture. -/
def picturePage : TypeNode :=
  (TypeNode.ofName "object").withProperties
    [("logo", { type := picture, required := true, name := "logo" })]

/-- The example stands inside the page, as that of a property. -/
theorem hasExample_picturePage {e : Example} {place pos : Position}
    (h : picturePage.HasExample e place pos)
    : e = .ofPath "logo.png" ∧ place = pos.inner := by
  cases h with
  | own member => cases member
  | property member inside =>
      cases List.mem_singleton.mp member
      exact hasExample_picture inside

/-- The file that parsing fails for. -/
def missedPath? {α : Type} : Except Error α → Option Path
  | .error (.io path _) => some path
  | _ => none

/-- The logo is looked for beside the document, where it is not. -/
theorem picturePage_misses
    : missedPath? ((shelf ["libs/logo.png"]).resolve .api none (site picturePage))
      = some ⟨"logo.png"⟩ := by
  decide +kernel

/-- The example of a property is not always read where it is written: a page of another library is
inherited with a picture that is then missed next to the document. -/
theorem not_reads_where_written
    : ¬∀ (p : Parser) (d₀ d : Document) (path : Path) (fault : FileFault),
        d₀.library.location = none → p.Loads d₀ d
        → p.resolve .api none d₀ = .error (.io path fault)
        → ∃ directory file, d.WrittenIn directory file ∧ path = directory.join ⟨file⟩ := by
  intro written
  have missed := picturePage_misses
  cases outcome : (shelf ["libs/logo.png"]).resolve .api none (site picturePage) with
  | ok d =>
      rw [outcome] at missed
      cases missed
  | error e =>
      rw [outcome] at missed
      cases e with
      | io path fault =>
          cases missed
          obtain ⟨_, file, ⟨e, place, stands, pending, rfl⟩, elsewhere⟩ :=
            written _ _ _ _ _ rfl (loads_site _ picturePage) outcome
          obtain ⟨rfl, rfl⟩ := hasExample_picturePage (hasExample_site stands)
          cases pending
          revert elsewhere
          decide +kernel
      | _ => cases missed

end Raml
