import Raml.Resolution
import Raml.Proofs.Guarantee
import Raml.Proofs.References

/-! Filling a type: which bases are looked up, and what comes of the answers.

`fillFrom` is the outcome for answers that depend on names alone. Every run of `fillWith` looks up
the references of a type in order and ends in that outcome for the answers it was given.
-/

namespace Raml

/-- The same property with another type. -/
def Property.withType (p : Property) (type : TypeNode) : Property := { p with type }

/-- The same properties, with a function applied to their types. -/
def Properties.mapTypes (f : TypeNode → TypeNode) (properties : Properties) : Properties :=
  Keyed.mapValues (fun p => p.withType (f p.type)) properties

section Steps

variable {m : Type → Type} [Monad m]

/-- Properties are filled in their order. -/
theorem fillProperties_cons [LawfulMonad m] (lookup : BaseLookup m) (key : String) (p : Property)
    (properties : Properties)
    : fillProperties lookup ((key, p) :: properties) = do
        let type ← p.type.fillWith lookup true
        let rest ← fillProperties lookup properties
        return (key, p.withType type) :: rest := by
  obtain ⟨type, required, name⟩ := p
  simp only [fillProperties, Property.fillWith, Property.withType, bind_assoc, pure_bind]

end Steps

namespace TypeNode

/-- The type that has inherited from its base, if one was found, and has the given properties
unless it inherits others. -/
def filled (t : TypeNode) (base? : Option TypeNode) (properties : Properties) : TypeNode :=
  let filled :=
    match base? with
    | some base =>
        let inherited := t.inherit base
        if t.object.isEmpty then inherited else inherited.withProperties properties
    | none => t.withProperties properties
  { filled with resolved := true }

theorem filled_none (t : TypeNode) (properties : Properties)
    : t.filled none properties
      = { t with object := { t.object with properties }, resolved := true } :=
  rfl

theorem filled_some (t base : TypeNode) (properties : Properties)
    : t.filled (some base) properties
      = { t.inherit base with
          object := if t.object.isEmpty then base.object else { t.object with properties }
          resolved := true } := by
  cases empty : t.object.isEmpty <;> simp [filled, inherit, withProperties, empty]

/-- The base of a type is looked up before its properties are filled, unless it is resolved. -/
theorem fillWith_def {m : Type → Type} [Monad m] (lookup : BaseLookup m) (inProperty : Bool)
    (t : TypeNode)
    : t.fillWith lookup inProperty =
        if t.resolved then pure t
        else do
          let base? ← if t.needsLookup then lookup t.baseName inProperty else pure none
          let properties ← fillProperties lookup t.properties
          return t.filled base? properties := by
  obtain ⟨_, ⟨_, _, _, _, _, _⟩, _, _, _, _, _, _, _, _⟩ := t
  rfl

theorem fillWith_of_resolved {m : Type → Type} [Monad m] (lookup : BaseLookup m)
    (inProperty : Bool) {t : TypeNode} (h : t.resolved = true)
    : t.fillWith lookup inProperty = pure t := by
  simp [fillWith_def, h]

/-- A type that has not been filled looks up its base, fills its properties and puts both together.
-/
theorem fillWith_eq {m : Type → Type} [Monad m] (lookup : BaseLookup m) (inProperty : Bool)
    {t : TypeNode} (h : t.resolved = false)
    : t.fillWith lookup inProperty = do
        let base? ← t.base?.elim (pure none) fun name => lookup name inProperty
        let properties ← fillProperties lookup t.properties
        return t.filled base? properties := by
  rw [fillWith_def, h, base?, h]
  cases t.needsLookup <;> rfl

/-- The type with what it inherits if `find` answers for the bases. -/
def fillFrom (find : String → Option TypeNode) (t : TypeNode) : TypeNode :=
  Id.run (t.fillWith (fun name _ => find name) false)

variable {find : String → Option TypeNode}

/-- What is resolved inherits nothing more. -/
theorem fillFrom_of_resolved {t : TypeNode} (h : t.resolved = true) : t.fillFrom find = t := by
  rw [fillFrom, fillWith_of_resolved _ _ h]
  rfl

/-- Where answers depend on names alone, it does not matter that a type is that of a property. -/
theorem run_fillWith (t : TypeNode) (inProperty : Bool)
    : Id.run (t.fillWith (fun name _ => find name) inProperty) = t.fillFrom find := by
  rw [fillFrom, fillWith_def, fillWith_def]

/-- Without a state to pass on, each type is filled by itself. -/
theorem run_fillProperties (properties : Properties)
    : Id.run (fillProperties (fun name _ => find name) properties)
      = properties.mapTypes (fillFrom find) := by
  induction properties with
  | nil => rfl
  | cons entry properties ih =>
      obtain ⟨key, p⟩ := entry
      rw [fillProperties_cons]
      simp only [Id.run_bind, Id.run_pure, run_fillWith, ih]
      rfl

/-- A type inherits from the answer for its base, and so do the types of its properties. -/
theorem fillFrom_eq {t : TypeNode} (h : t.resolved = false)
    : t.fillFrom find
      = t.filled (t.base?.bind find) (t.properties.mapTypes (fillFrom find)) := by
  rw [fillFrom, fillWith_eq _ _ h, ← run_fillProperties]
  cases t.base? <;> rfl

/-- A type has the kind of its base, if that is found. -/
theorem kind_fillFrom {t : TypeNode} (h : t.resolved = false)
    : (t.fillFrom find).kind = ((t.base?.bind find).map TypeNode.kind).getD t.kind := by
  rw [fillFrom_eq h]
  cases t.base?.bind find with
  | none => rfl
  | some base =>
      rw [filled_some]
      rfl

/-- Only the answers for its references matter to a type. -/
theorem fillFrom_congr {f g : String → Option TypeNode} (t : TypeNode)
    (h : ∀ name ∈ t.references, f name = g name)
    : t.fillFrom f = t.fillFrom g := by
  induction t using induct with
  | step t ih =>
      cases resolved : t.resolved with
      | true => rw [fillFrom_of_resolved resolved, fillFrom_of_resolved resolved]
      | false =>
          have base : t.base?.bind f = t.base?.bind g := by
            cases found : t.base? with
            | none => rfl
            | some name => exact h name (mem_references_of_base? found)
          have properties : t.properties.mapTypes (fillFrom f)
              = t.properties.mapTypes (fillFrom g) := by
            refine List.map_congr_left fun ⟨key, p⟩ member => ?_
            have same := ih key p member fun name asked =>
              h name ((mem_references resolved).mpr (Or.inr ⟨key, p, member, asked⟩))
            simp only [same]
          rw [fillFrom_eq resolved, fillFrom_eq resolved, base, properties]

end TypeNode

section Runs

variable {m : Type → Type} [Monad m] [LawfulMonad m] {σ : Type} (G : Guarantee m σ)
variable {lookup : BaseLookup m} {I : List (String × Option TypeNode) → σ → Prop}

/-- Names with what look-ups answered for them, as far as `find` answers the same. -/
def Answered (find : String → Option TypeNode) (answers : List (String × Option TypeNode)) : Prop :=
  ∀ name answer, (name, answer) ∈ answers → find name = answer

/-- Answers are the same if each part of them is. -/
theorem Answered.append {find : String → Option TypeNode}
    {answers more : List (String × Option TypeNode)} (h : Answered find (answers ++ more))
    : Answered find answers ∧ Answered find more :=
  ⟨fun name answer member => h name answer (List.mem_append_left _ member),
    fun name answer member => h name answer (List.mem_append_right _ member)⟩

/-- `lookup` keeps an invariant of the answers given so far if it is asked for a name. -/
def Asks (lookup : BaseLookup m) (I : List (String × Option TypeNode) → σ → Prop) (name : String)
    (inProperty : Bool) (done : List (String × Option TypeNode)) (s : σ) : Prop :=
  G.ensures s (lookup name inProperty) fun answer s' => I (done ++ [(name, answer)]) s'

/-- What filling ends in: `names` have been looked up, the invariant holds, and the result is the
one that the answers lead to. -/
def Ends {α : Type} (I : List (String × Option TypeNode) → σ → Prop)
    (done : List (String × Option TypeNode)) (names : List String)
    (outcome : (String → Option TypeNode) → α) (result : α) (s : σ) : Prop :=
  ∃ answers, answers.map Prod.fst = names ∧ I (done ++ answers) s
    ∧ ∀ find, Answered find answers → result = outcome find

/-- Properties look up what their types refer to, in order, and each time as properties do. -/
theorem fillProperties_ensures {properties : Properties}
    (each : ∀ key p, (key, p) ∈ properties → ∀ done s, I done s →
      G.ensures s (p.type.fillWith lookup true)
        (Ends I done p.type.references fun find => p.type.fillFrom find))
    {done : List (String × Option TypeNode)} {s : σ} (start : I done s)
    : G.ensures s (fillProperties lookup properties)
        (Ends I done (propertyReferences properties) fun find =>
          properties.mapTypes (TypeNode.fillFrom find)) := by
  induction properties generalizing done s with
  | nil => exact G.pure ⟨[], rfl, by simpa using start, fun _ _ => rfl⟩
  | cons entry properties ih =>
      obtain ⟨key, p⟩ := entry
      rw [fillProperties_cons]
      refine G.bind (G.mono (each key p List.mem_cons_self done s start) ?_)
      rintro type s₁ ⟨answers, names, kept, outcome⟩
      have later := ih (fun k q member => each k q (List.mem_cons_of_mem _ member)) kept
      refine G.bind (G.mono later ?_)
      rintro rest s₂ ⟨more, moreNames, keptMore, restOutcome⟩
      refine G.pure ⟨answers ++ more, ?_, ?_, ?_⟩
      · rw [List.map_append, names, moreNames, propertyReferences, Property.references_eq]
      · rwa [← List.append_assoc]
      · intro find answered
        rw [outcome find answered.append.1, restOutcome find answered.append.2]
        rfl

/-- Once the base is answered for, the properties are filled and put together with it. -/
theorem TypeNode.filled_ensures {t : TypeNode} (resolved : t.resolved = false)
    (each : ∀ key p, (key, p) ∈ t.properties → ∀ done s, I done s →
      G.ensures s (p.type.fillWith lookup true)
        (Ends I done p.type.references fun find => p.type.fillFrom find))
    {done answers : List (String × Option TypeNode)} {base? : Option TypeNode} {s : σ}
    (kept : I (done ++ answers) s) (names : answers.map Prod.fst = t.base?.toList)
    (same : ∀ find, Answered find answers → base? = t.base?.bind find)
    : G.ensures s (do return t.filled base? (← fillProperties lookup t.properties))
        (Ends I done t.references fun find => t.fillFrom find) := by
  refine G.bind (G.mono (fillProperties_ensures G each kept) ?_)
  rintro properties s' ⟨more, moreNames, keptMore, outcome⟩
  refine G.pure ⟨answers ++ more, ?_, ?_, ?_⟩
  · rw [List.map_append, names, moreNames, references_eq resolved]
  · rwa [← List.append_assoc]
  · intro find answered
    show _ = t.fillFrom find
    rw [fillFrom_eq resolved, same find answered.append.1, outcome find answered.append.2]

/-- A type looks up its base, then what the types of its properties refer to. Whoever answers for
the properties may rely on what the answer for the base has established. -/
theorem TypeNode.fillWith_ensures (t : TypeNode) {inProperty : Bool}
    {done : List (String × Option TypeNode)} {s : σ}
    (base : t.base?.elim (I done s) fun name => Asks G lookup I name inProperty done s)
    (properties : t.resolved = false → ∀ name ∈ propertyReferences t.properties, ∀ done s,
      I done s → Asks G lookup I name true done s)
    : G.ensures s (t.fillWith lookup inProperty)
        (Ends I done t.references fun find => t.fillFrom find) := by
  induction t using TypeNode.induct generalizing inProperty done s with
  | step t ih =>
      cases resolved : t.resolved with
      | true =>
          rw [fillWith_of_resolved _ _ resolved]
          rw [base?_of_resolved resolved] at base
          refine G.pure ⟨[], by simp [references_def, resolved], by simpa using base, ?_⟩
          exact fun find _ => (fillFrom_of_resolved resolved).symm
      | false =>
          -- At any depth, properties are looked up after the base of the type that has them all.
          have each : ∀ key p, (key, p) ∈ t.properties → ∀ done s, I done s →
              G.ensures s (p.type.fillWith lookup true)
                (Ends I done p.type.references fun find => p.type.fillFrom find) := by
            intro key p member done s kept
            have asked : ∀ name ∈ p.type.references, name ∈ propertyReferences t.properties := by
              intro name mentioned
              rw [propertyReferences_eq]
              exact List.mem_flatMap.mpr ⟨_, member, mentioned⟩
            refine ih key p member ?_ fun unresolved name mentioned => ?_
            · cases found : p.type.base? with
              | none => exact kept
              | some name =>
                  exact properties resolved name (asked name (mem_references_of_base? found))
                    done s kept
            · refine properties resolved name (asked name ?_)
              rw [references_eq unresolved]
              exact List.mem_append_right _ mentioned
          rw [fillWith_eq _ _ resolved]
          cases found : t.base? with
          | none =>
              rw [found] at base
              have kept : I (done ++ []) s := by simpa using base
              refine G.bind (G.pure (filled_ensures G resolved each kept ?_ ?_))
              · simp [found]
              · simp [found]
          | some name =>
              rw [found] at base
              refine G.bind (G.mono base fun answer s' kept => ?_)
              refine filled_ensures G resolved each kept ?_ ?_
              · simp [found]
              · intro find answered
                rw [found]
                exact (answered name answer List.mem_cons_self).symm

end Runs

-----------------------------------------------------------------------------------------
-- Resolved bases
-----------------------------------------------------------------------------------------

namespace TypeNode

variable {find : String → Option TypeNode}

/-- All names have been found, as `find` finds them. -/
def AllFound (find : String → Option TypeNode) (answers : List (String × Option TypeNode))
    (_ : Unit) : Prop :=
  Answered find answers ∧ ∀ q ∈ answers, q.2.isSome

theorem AllFound.nil : AllFound find [] () := by
  simp [AllFound, Answered]

/-- Against resolved bases, a look-up answers what it finds and fails for names it does not find. -/
theorem resolvedBases_asks {allowed : Error → Prop} (name : String) (inProperty : Bool)
    (missing : find name = none → allowed (.typeUndefined name))
    {done : List (String × Option TypeNode)} {s : Unit} (kept : AllFound find done s)
    : Asks (.stateless allowed) (resolvedBases find) (AllFound find) name inProperty done s := by
  unfold Asks resolvedBases
  cases found : find name with
  | none => exact missing found
  | some base =>
      refine ⟨fun other answer member => ?_, fun q member => ?_⟩
      · rcases List.mem_append.mp member with earlier | last
        · exact kept.1 other answer earlier
        · cases List.mem_singleton.mp last
          exact found
      · rcases List.mem_append.mp member with earlier | last
        · exact kept.2 q earlier
        · cases List.mem_singleton.mp last
          rfl

/-- A type is filled if all that it refers to is found; else a name that is not found is reported.
-/
theorem fill_cases (library : Library) (t : TypeNode)
    : (t.fill library = .ok (t.fillFrom library.getType?)
        ∧ ∀ name ∈ t.references, (library.getType? name).isSome)
      ∨ ∃ name ∈ t.references, library.getType? name = none
          ∧ t.fill library = .error (.typeUndefined name) := by
  let allowed (e : Error) : Prop :=
    ∃ name ∈ t.references, library.getType? name = none ∧ e = .typeUndefined name
  have asks : ∀ name ∈ t.references, ∀ inProperty done s, AllFound library.getType? done s
      → Asks (.stateless allowed) (resolvedBases library.getType?) (AllFound library.getType?)
          name inProperty done s :=
    fun name mentioned inProperty _ _ kept =>
      resolvedBases_asks name inProperty (fun missing => ⟨name, mentioned, missing, rfl⟩) kept
  have ensured : (Guarantee.stateless allowed).ensures () (t.fill library)
      (Ends (AllFound library.getType?) [] t.references fun find => t.fillFrom find) := by
    refine fillWith_ensures _ t ?_ fun unresolved name mentioned => asks name ?_ true
    · cases found : t.base? with
      | none => exact AllFound.nil
      | some name => exact asks name (mem_references_of_base? found) false [] () AllFound.nil
    · rw [references_eq unresolved]
      exact List.mem_append_right _ mentioned
  cases run : t.fill library with
  | ok result =>
      rw [run] at ensured
      obtain ⟨answers, names, ⟨answered, known⟩, outcome⟩ := ensured
      rw [outcome _ answered]
      refine Or.inl ⟨rfl, fun name mentioned => ?_⟩
      rw [← names] at mentioned
      obtain ⟨⟨_, answer⟩, member, rfl⟩ := List.mem_map.mp mentioned
      rw [answered _ _ member]
      exact known _ member
  | error e =>
      rw [run] at ensured
      obtain ⟨name, mentioned, missing, rfl⟩ := ensured
      exact Or.inr ⟨name, mentioned, missing, rfl⟩

end TypeNode

end Raml
