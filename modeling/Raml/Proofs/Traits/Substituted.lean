import Raml.Proofs.Guarantee
import Raml.Proofs.Traits.Visible

/-! What takes the place of the uses of traits.

A use becomes the declaration that its name denotes in the library around it, less what that
declaration uses itself. So a walk that goes on into the declaration it has just put there finds
nothing to do, however declared traits use each other.
-/

namespace Raml

-----------------------------------------------------------------------------------------
-- Uses by name
-----------------------------------------------------------------------------------------

mutual

/-- The uses of traits by name in a trait: what has a name is one itself, and all that it says
besides does not count. -/
def Trait.named : Trait → List Trait
  | t@⟨reference, method, _, _, _, _, _⟩ => if reference.isEmpty then method.named else [t]

def Method.named : Method → List Trait
  | ⟨_, _, _, _, _, _, _, _, _, is, _, _⟩ => namedIn is

def namedIn : List Trait → List Trait
  | [] => []
  | t :: traits => t.named ++ namedIn traits

end

theorem namedIn_eq (traits : List Trait) : namedIn traits = traits.flatMap Trait.named := by
  induction traits with
  | nil => rfl
  | cons t traits ih => rw [namedIn, ih, List.flatMap_cons]

theorem namedIn_append (traits more : List Trait)
    : namedIn (traits ++ more) = namedIn traits ++ namedIn more := by
  simp only [namedIn_eq, List.flatMap_append]

/-- The uses of traits by name in the library behind some namespaces, in what it declares and in the
resources that belong to it. -/
def Document.namedTraits (d : Document) (path : List String) (l : Library) : List Trait :=
  namedIn (l.traits.map (·.2)) ++
    match path with
    | [] => namedIn (resourceTraitUses d.resources)
    | _ :: _ => []

/-- What a declaration is where it is used under a name: it keeps all but the traits that it uses.
-/
def Trait.usedAs (declared : Trait) (name : String) : Trait :=
  { declared with method := { declared.method with is := [] }, reference := name }

mutual

/-- A trait with declarations of a library in place of uses by name. -/
def Trait.substituted (l : Library) : Trait → Trait
  | t@⟨reference, method, _, _, _, _, _⟩ =>
      if reference.isEmpty then { t with method := method.substituted l }
      else ((l.getTrait? reference).map (·.usedAs reference)).getD t

def Method.substituted (l : Library) : Method → Method
  | m@⟨_, _, _, _, _, _, _, _, _, is, _, _⟩ => { m with is := substitutedTraits l is }

def substitutedTraits (l : Library) : List Trait → List Trait
  | [] => []
  | t :: traits => t.substituted l :: substitutedTraits l traits

end

mutual

/-- A resource and those below it, with declarations of a library in place of uses by name. -/
def Resource.substituted (l : Library) : Resource → Resource
  | r@⟨_, _, _, methods, is, _, _, _, resources⟩ =>
      { r with
        is := substitutedTraits l is
        methods := Keyed.mapValues (Method.substituted l) methods
        resources := substitutedResources l resources }

def substitutedResources (l : Library) : List (String × Resource) → List (String × Resource)
  | [] => []
  | (key, r) :: resources => (key, r.substituted l) :: substitutedResources l resources

end

mutual

/-- A library and those it uses, each with its own declarations in place of uses by name. -/
def Library.substituted : Library → Library
  | l@⟨_, _, _, traits, _, _, _, _, uses, _⟩ =>
      { l with
        traits := Keyed.mapValues (Trait.substituted l) traits
        uses := substitutedUses uses }

def Use.substituted : Use → Use
  | .external path => .external path
  | .loaded library => .loaded library.substituted

def substitutedUses : List (String × Use) → List (String × Use)
  | [] => []
  | (name, use) :: uses => (name, use.substituted) :: substitutedUses uses

end

/-- A document with declarations in place of all uses of traits by name. -/
def Document.substituted (d : Document) : Document :=
  { d with
    library := d.library.substituted
    resources := substitutedResources d.library d.resources }

-----------------------------------------------------------------------------------------
-- A walk into what is put in place
-----------------------------------------------------------------------------------------

/-- A trait with others in place of those it uses. -/
def Trait.withUses (t : Trait) (is : List Trait) : Trait :=
  { t with method := { t.method with is } }

/-- A trait with its own uses is the same. -/
theorem Trait.withUses_self (t : Trait) : t.withUses t.method.is = t := by
  obtain ⟨_, ⟨_, _, _, _, _, _, _, _, _, _, _, _⟩, _, _, _, _, _⟩ := t
  rfl

/-- A use is filled in by name, and anything else is left. -/
theorem Trait.fill_eq (l : Library) (t : Trait)
    : t.fill l
        = if t.reference.isEmpty then .ok none
          else
            match l.getTrait? t.reference with
            | none => .error (.traitUndefined t.reference)
            | some declared => .ok (some (declared.usedAs t.reference)) :=
  rfl

/-- What has come of a trait uses smaller ones only: those that were in it, or none at all if it has
been replaced by what it denotes. -/
theorem Trait.sizeOf_lt_of_fill {l : Library} {t u : Trait} {done? : Option Trait}
    (filled : t.fill l = .ok done?) (used : u ∈ (done?.getD t).method.is)
    : sizeOf u < sizeOf t := by
  rw [Trait.fill_eq] at filled
  split at filled
  · cases filled
    obtain ⟨_, ⟨_, _, _, _, _, _, _, _, _, is, _, _⟩, _, _, _, _, _⟩ := t
    have := List.sizeOf_lt_of_mem (show u ∈ is from used)
    simp only [Trait.mk.sizeOf_spec, Method.mk.sizeOf_spec]
    omega
  · cases found : l.getTrait? t.reference with
    | none => rw [found] at filled; cases filled
    | some declared =>
        rw [found] at filled
        cases filled
        cases used

/-- Fills in a trait and then the traits that are used in what has come of it, and so on. -/
def Trait.replace (l : Library) (t : Trait) : Except Error Trait :=
  match filled : t.fill l with
  | .error e => .error e
  | .ok done? => do
      let is ← (done?.getD t).method.is.attach.mapM fun ⟨u, used⟩ =>
        have := sizeOf_lt_of_fill filled used
        replace l u
      return (done?.getD t).withUses is
termination_by sizeOf t

namespace Pass

variable {s : Scope}

/-- Bodies have no traits. -/
theorem onBodies_fillTraits (site : Target) (bodies : Bodies)
    : fillTraits.onBodies s site bodies = .ok bodies :=
  onValues_idle (fun _ => rfl) bodies

theorem onResponses_fillTraits (responses : Responses)
    : fillTraits.onResponses s responses = .ok responses := by
  have each : ∀ entry ∈ responses,
      (do return (entry.1, ← fillTraits.onResponse s entry.2)) = Except.ok (id entry) := by
    rintro ⟨status, r⟩ -
    rw [onResponse, onBodies_fillTraits]
    rfl
  exact (mapM_eq_map each).trans (congrArg _ (List.map_id responses))

/-- All that filling in traits changes in a method are the traits it uses. -/
theorem onMethod_fillTraits (target : Target) (m : Method)
    : fillTraits.onMethod s target m
        = fillTraits.onTraits s m.is >>= fun is => .ok { m with is } := by
  cases m
  simp only [onMethod, onBodies_fillTraits, onResponses_fillTraits]
  rfl

/-- What is filled in is not walked any further. -/
theorem onTrait_fillTraits (t : Trait)
    : fillTraits.onTrait s t
        = t.fill s.library >>= fun
          | some done => .ok done
          | none => fillTraits.onTraits s t.method.is >>= fun is =>
              .ok (t.withUses is) := by
  cases t with
  | mk reference method usage resourcePath resourcePathName methodName source =>
      simp only [onTrait, onMethod_fillTraits]
      refine congrArg _ (funext fun done? => ?_)
      cases done? with
      | some done => rfl
      | none => cases fillTraits.onTraits s method.is <;> rfl

/-- What is filled in is walked further. -/
theorem replace_eq (l : Library) (t : Trait)
    : t.replace l = t.fill l >>= fun done? =>
        (done?.getD t).method.is.mapM (Trait.replace l) >>= fun is =>
          .ok ((done?.getD t).withUses is) := by
  rw [Trait.replace]
  split
  · rename_i failed
    rw [failed]
    rfl
  · rename_i done? filled
    rw [List.mapM_subtype (g := Trait.replace l) fun _ _ => rfl, List.unattach_attach, filled]
    rfl

mutual

/-- The walk into what is put in place makes no difference, since nothing there uses traits. -/
theorem onTrait_eq_replace : ∀ t : Trait, fillTraits.onTrait s t = t.replace s.library
  | ⟨_, ⟨_, _, _, _, _, _, _, _, _, is, _, _⟩, _, _, _, _, _⟩ => by
      rw [onTrait_fillTraits, replace_eq]
      cases filled : Trait.fill s.library _ with
      | error e => rfl
      | ok done? =>
          cases done? with
          | some done =>
              have bare : done.method.is = [] := (fillTraits_fillsUses s _ done filled).2.2
              have same : done.withUses [] = done := bare ▸ done.withUses_self
              simp only [ok_bind, Option.getD_some, bare, List.mapM_nil, pure_eq_ok, same]
          | none =>
              simp only [ok_bind, Option.getD_none, onTraits_eq_replace is]

/-- To walk further changes nothing, as what is filled in uses nothing. -/
theorem onTraits_eq_replace
    : ∀ traits : List Trait, fillTraits.onTraits s traits = traits.mapM (Trait.replace s.library)
  | [] => rfl
  | t :: traits => by
      rw [List.mapM_cons, ← onTrait_eq_replace t, ← onTraits_eq_replace traits]
      rfl

end

/-- Two traits that use each other, one of which uses itself as well. -/
def entangled : Library :=
  { Library.empty with
    traits := [("paged", Trait.empty.withUses [.use "sorted"]),
      ("sorted", { Trait.empty.withUses [.use "paged", .use "sorted"] with usage := "lists" })] }

example : (Trait.use "sorted").replace entangled
    = .ok { Trait.use "sorted" with usage := "lists" } := by
  rw [← onTrait_eq_replace (s := ⟨"", entangled, ⟨""⟩⟩)]
  cbv

/-- All that filling in traits changes in a library are traits. -/
theorem onLibrary_fillTraits (target : Target) (l : Library)
    : fillTraits.onLibrary s target l
        = onValues (fillTraits.onTrait s) l.traits >>= fun traits =>
            fillTraits.onUses s l.uses >>= fun uses => .ok { l with traits, uses } := by
  cases l with
  | mk usage schemas types traits resourceTypes annotationTypes annotations securitySchemes uses
      location =>
      have ofTypes := onValues_idle (f := fillTraits.type s [.typeDeclaration]) (fun _ => rfl) types
      have ofAnnotations := onValues_idle (f := fun a : AnnotationType => do
        return { a with type := ← fillTraits.type s [.annotationType] a.type })
        (fun a => by cases a; rfl) annotationTypes
      rw [onLibrary, ofTypes]
      simp only [ok_bind]
      refine congrArg _ (funext fun traits => ?_)
      have rest : fillTraits.annotationTypes annotationTypes = annotationTypes := rfl
      rw [rest, ofAnnotations]
      rfl

-----------------------------------------------------------------------------------------
-- The outcome of filling in
-----------------------------------------------------------------------------------------

/-- A computation comes to a value if no traits are missing, and fails with the first one if any
are. -/
def Outcome {α : Type} (x : Except Error α) (missing : List String) (a : α) : Prop :=
  x = match missing with
    | [] => .ok a
    | name :: _ => .error (.traitUndefined name)

theorem Outcome.ok {α : Type} (a : α) : Outcome (.ok a) [] a := rfl

/-- Of two computations in turn, names missing in the first one come first. -/
theorem Outcome.bind {α β : Type} {x : Except Error α} {f : α → Except Error β} {a : α} {b : β}
    {missing more : List String} (first : Outcome x missing a) (rest : Outcome (f a) more b)
    : Outcome (x >>= f) (missing ++ more) b := by
  cases first
  cases missing with
  | nil => exact rest
  | cons => rfl

theorem Outcome.map {α β : Type} {x : Except Error α} {a : α} {missing : List String}
    (h : Outcome x missing a) (f : α → β)
    : Outcome (x >>= fun a => .ok (f a)) missing (f a) :=
  List.append_nil missing ▸ h.bind (.ok (f a))

/-- The names that are used in traits and that a library has no declarations for. -/
def missing (l : Library) (traits : List Trait) : List String :=
  ((namedIn traits).map (·.reference)).filter fun name => (l.getTrait? name).isNone

/-- Names missing in two lists are missing in turn. -/
theorem missing_append (l : Library) (traits more : List Trait)
    : missing l (traits ++ more) = missing l traits ++ missing l more := by
  simp [missing, namedIn_append]

theorem missing_flatMap {α : Type} (l : Library) (list : List α) (f : α → List Trait)
    : missing l (list.flatMap f) = list.flatMap fun a => missing l (f a) := by
  induction list with
  | nil => rfl
  | cons a list ih => rw [List.flatMap_cons, missing_append, ih, List.flatMap_cons]

mutual

/-- By induction on the trait: a use is replaced, and what is no use is walked. -/
theorem outcome_onTrait
    : ∀ t : Trait, Outcome (fillTraits.onTrait s t) (missing s.library [t])
        (t.substituted s.library)
  | ⟨reference, ⟨_, _, _, _, _, _, _, _, _, is, _, _⟩, _, _, _, _, _⟩ => by
      rw [onTrait_fillTraits, Trait.fill_eq, Trait.substituted]
      by_cases nameless : reference.isEmpty
      · rw [if_pos nameless, if_pos nameless, missing, namedIn, Trait.named, if_pos nameless,
          namedIn, List.append_nil]
        exact (outcome_onTraits is).map _
      · rw [if_neg nameless, if_neg nameless]
        cases found : s.library.getTrait? reference
          <;> simp [missing, namedIn, Trait.named, nameless, found, Outcome]
          <;> rfl

theorem outcome_onTraits
    : ∀ traits : List Trait, Outcome (fillTraits.onTraits s traits)
        (missing s.library traits) (substitutedTraits s.library traits)
  | [] => .ok []
  | t :: traits => by
      rw [← List.singleton_append, missing_append]
      exact (outcome_onTrait t).bind ((outcome_onTraits traits).map _)

end

theorem outcome_onValues {α : Type} {f : α → Except Error α} {names : α → List String} {g : α → α}
    (each : ∀ a, Outcome (f a) (names a) (g a)) (entries : List (String × α))
    : Outcome (onValues f entries) (entries.flatMap fun entry => names entry.2)
        (Keyed.mapValues g entries) := by
  induction entries with
  | nil => exact .ok []
  | cons entry entries ih =>
      rw [onValues, List.mapM_cons, List.flatMap_cons]
      exact ((each entry.2).map fun a => (entry.1, a)).bind (ih.map _)

/-- The traits that a method uses are all that changes in it. -/
theorem outcome_onMethod (s : Scope) (target : Target) (m : Method)
    : Outcome (fillTraits.onMethod s target m) (missing s.library m.is)
        (m.substituted s.library) := by
  rw [onMethod_fillTraits]
  cases m
  exact (outcome_onTraits _).map _

mutual

/-- By induction on the resource: its own uses come first, then those of methods, and those below.
-/
theorem outcome_onResource (key : String)
    : ∀ r : Resource, Outcome (fillTraits.onResource s key r)
        (missing s.library r.traitUses) (r.substituted s.library)
  | ⟨_, _, _, methods, is, _, _, _, resources⟩ => by
      have own := outcome_onTraits (s := s) is
      have inMethods := outcome_onValues (outcome_onMethod s .method) methods
      have below := outcome_onResources resources
      rw [Resource.traitUses, missing_append, missing_append, missing_flatMap, List.append_assoc]
      exact own.bind (inMethods.bind (below.map _))

theorem outcome_onResources
    : ∀ resources : List (String × Resource), Outcome (fillTraits.onResources s resources)
        (missing s.library (resourceTraitUses resources))
        (substitutedResources s.library resources)
  | [] => .ok []
  | (key, r) :: resources => by
      rw [resourceTraitUses, missing_append]
      exact (outcome_onResource key r).bind ((outcome_onResources resources).map _)

end

/-- The names that libraries use and have no declarations for. -/
def missingIn (libraries : List (String × Library)) : List String :=
  libraries.flatMap fun entry => missing entry.2 (entry.2.traits.map (·.2))

mutual

/-- By induction on what the library uses, each library being the scope of its own traits. -/
theorem outcome_onLibrary (target : Target)
    : ∀ (l : Library) (s : Scope), s.library = l
      → Outcome (fillTraits.onLibrary s target l)
          (missing l (l.traits.map (·.2)) ++ missingIn (l.nestedFrom s.lead)) l.substituted
  | ⟨_, _, _, traits, _, _, _, _, uses, _⟩, s, here => by
      have declared := outcome_onValues (outcome_onTrait (s := s)) traits
      have used := outcome_onUses uses s
      rw [onLibrary_fillTraits, List.map_eq_flatMap, missing_flatMap, ← here]
      rw [here] at declared ⊢
      exact declared.bind (used.map _)

theorem outcome_onUse (name : String)
    : ∀ (use : Use) (s : Scope), Outcome (fillTraits.onUse s name use)
        (missingIn (Library.nestedUse (s.lead ++ name ++ ".") use)) use.substituted
  | .external _, _ => .ok _
  | .loaded library, s => (outcome_onLibrary .library library (s.enter name library) rfl).map _

theorem outcome_onUses
    : ∀ (uses : List (String × Use)) (s : Scope), Outcome (fillTraits.onUses s uses)
        (missingIn (Library.nestedUses s.lead uses)) (substitutedUses uses)
  | [], _ => .ok []
  | (name, use) :: uses, s => by
      rw [Library.nestedUses, missingIn, List.flatMap_append]
      exact (outcome_onUse name use s).bind ((outcome_onUses uses s).map _)

end

/-- A computation fails if a name is missing. -/
theorem Outcome.failed_iff {α : Type} {x : Except Error α} {missing : List String} {a : α}
    (h : Outcome x missing a)
    : (∃ name, x = .error (.traitUndefined name)) ↔ ∃ name, name ∈ missing := by
  cases h
  cases missing <;> simp

/-- It fails for a missing name, or it comes to its value. -/
theorem Outcome.failed_or {α : Type} {x : Except Error α} {missing : List String} {a : α}
    (h : Outcome x missing a)
    : (∃ name, x = .error (.traitUndefined name)) ∨ x = .ok a := by
  cases h
  cases missing with
  | nil => exact Or.inr rfl
  | cons name => exact Or.inl ⟨name, rfl⟩

/-- A missing name is used, and denotes nothing. -/
theorem mem_missing_iff {l : Library} {traits : List Trait} {name : String}
    : name ∈ missing l traits
      ↔ ∃ t ∈ namedIn traits, t.reference = name ∧ l.getTrait? name = none := by
  simp only [missing, List.mem_filter, List.mem_map, Option.isNone_iff_eq_none, exists_and_right,
    ← and_assoc]

/-- The names that are used somewhere in a document, and that denote nothing there. -/
def missingAnywhere (d : Document) : List String :=
  missing d.library (d.library.traits.map (·.2)) ++ missingIn d.library.nested
    ++ missing d.library (resourceTraitUses d.resources)

/-- A run over the whole document. -/
theorem outcome_run (target : Target) (d : Document)
    : Outcome (fillTraits.run target d) (missingAnywhere d) d.substituted :=
  (outcome_onLibrary target d.library d.scope rfl).bind
    ((outcome_onResources (s := d.scope) d.resources).map _)

/-- A name is missing somewhere if it denotes nothing in the library around the use. -/
theorem mem_missingAnywhere_iff {d : Document} {name : String}
    : name ∈ missingAnywhere d
      ↔ ∃ path l t, d.library.Reaches path l ∧ t ∈ d.namedTraits path l ∧ t.reference = name
          ∧ l.getTrait? name = none := by
  constructor
  · intro member
    rcases List.mem_append.mp member with inLibraries | inResources
    · rcases List.mem_append.mp inLibraries with own | below
      · obtain ⟨t, used, same, absent⟩ := mem_missing_iff.mp own
        exact ⟨[], d.library, t, .self _, List.mem_append_left _ used, same, absent⟩
      · obtain ⟨⟨lead, l⟩, nested, inside⟩ := List.mem_flatMap.mp below
        obtain ⟨first, path, reaches, -⟩ := Library.mem_nestedFrom_iff.mp nested
        obtain ⟨t, used, same, absent⟩ := mem_missing_iff.mp inside
        exact ⟨first :: path, l, t, reaches, List.mem_append_left _ used, same, absent⟩
    · obtain ⟨t, used, same, absent⟩ := mem_missing_iff.mp inResources
      exact ⟨[], d.library, t, .self _, List.mem_append_right _ used, same, absent⟩
  · rintro ⟨path, l, t, reaches, used, same, absent⟩
    cases reaches with
    | self =>
        rcases List.mem_append.mp used with own | inResources
        · exact List.mem_append_left _ (List.mem_append_left _ (mem_missing_iff.mpr
            ⟨t, own, same, absent⟩))
        · exact List.mem_append_right _ (mem_missing_iff.mpr ⟨t, inResources, same, absent⟩)
    | used first rest =>
        have nested : (TypeName.leadFrom "" (_ :: _), l) ∈ d.library.nested :=
          Library.mem_nestedFrom_iff.mpr ⟨_, _, .used first rest, rfl⟩
        have own : t ∈ namedIn (l.traits.map (·.2)) := by
          simpa [Document.namedTraits] using used
        exact List.mem_append_left _ (List.mem_append_right _ (List.mem_flatMap.mpr
          ⟨_, nested, mem_missing_iff.mpr ⟨t, own, same, absent⟩⟩))

/-- Going on into what filling in traits puts in place ends, however traits refer to each other and
to themselves, and makes no difference. The pass fails exactly where a trait is used by a name that
denotes none in the library around it. Otherwise each use is now the declaration that its name
denoted when the pass began, under the name of the use and without the traits that this declaration
uses, and nothing else has changed. -/
theorem run_fillTraits (target : Target) (d : Document)
    : (∀ s t, fillTraits.onTrait s t = t.replace s.library)
      ∧ ((∃ name, fillTraits.run target d = .error (.traitUndefined name))
        ↔ ∃ path l t, d.library.Reaches path l ∧ t ∈ d.namedTraits path l
            ∧ l.getTrait? t.reference = none)
      ∧ ((∃ name, fillTraits.run target d = .error (.traitUndefined name))
        ∨ fillTraits.run target d = .ok d.substituted) := by
  have outcome := outcome_run target d
  refine ⟨fun s t => onTrait_eq_replace t, outcome.failed_iff.trans ?_, outcome.failed_or⟩
  constructor
  · rintro ⟨name, member⟩
    obtain ⟨path, l, t, reaches, used, rfl, none⟩ := mem_missingAnywhere_iff.mp member
    exact ⟨path, l, t, reaches, used, none⟩
  · rintro ⟨path, l, t, reaches, used, none⟩
    exact ⟨_, mem_missingAnywhere_iff.mpr ⟨path, l, t, reaches, used, rfl, none⟩⟩

end Pass

end Raml
