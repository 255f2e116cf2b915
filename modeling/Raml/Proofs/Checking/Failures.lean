import Raml.ExampleValue
import Raml.Proofs.Outcomes
import Raml.Proofs.Checking.Acceptance
import Raml.Proofs.References
import Raml.Review

/-! What checks and reviews fail with: they are about a document, not about the files that it names.
-/

namespace Raml

/-- The error has nothing to do with files. -/
def Error.Inner (e : Error) : Prop := ∀ path fault, e ≠ .io path fault

/-- The error has nothing to do with files, nor with where annotations may be applied. -/
structure Error.Early (e : Error) : Prop where
  inner : e.Inner
  allowed : ∀ name places, e ≠ .annotationNotAllowed name places

/-- The error says that a value does not conform to a type. -/
def Error.Refusal : Error → Prop
  | .typeMismatch _ _ _ | .propertyMismatch _ _ | .elementMismatch _ _ _ | .requiredProperty _ _ =>
      True
  | _ => False

/-- Refusals have nothing to do with files. -/
theorem Error.Refusal.inner {e : Error} (h : e.Refusal) : e.Inner := by
  rintro path fault rfl
  exact h

/-- The computation fails with errors of one kind only. -/
abbrev Fails (allowed : Error → Prop) {α : Type} (x : Except Error α) : Prop :=
  Alike allowed x x fun _ => True

/-- The computation does not fail for files. -/
abbrev FailsInner {α : Type} (x : Except Error α) : Prop := Fails Error.Inner x

/-- The computation fails neither for files nor for where annotations are applied. -/
abbrev FailsEarly {α : Type} (x : Except Error α) : Prop := Fails Error.Early x

variable {allowed : Error → Prop}

/-- A sequence fails as its parts do. -/
theorem Fails.seq {α β : Type} {x : Except Error α} {f : α → Except Error β}
    (h : Fails allowed x) (step : ∀ a, Fails allowed (f a))
    : Fails allowed (x >>= f) :=
  Alike.bind h fun a _ => step a

theorem Fails.map {α β : Type} {x : Except Error α} {f : α → β} (h : Fails allowed x)
    : Fails allowed (x.map f) :=
  Alike.map h

/-- Lists fail as their items do. -/
theorem Fails.mapM {α β : Type} {f : α → Except Error β} {list : List α}
    (each : ∀ a ∈ list, Fails allowed (f a))
    : Fails allowed (list.mapM f) :=
  (Alike.mapM each).mono fun _ _ => trivial

theorem Fails.forM {α : Type} {f : α → Except Error Unit} {list : List α}
    (each : ∀ a ∈ list, Fails allowed (f a))
    : Fails allowed (list.forM f) := by
  induction list with
  | nil => exact Alike.ok trivial
  | cons a list ih =>
      obtain ⟨first, rest⟩ := List.forall_mem_cons.mp each
      exact first.bind fun _ _ => ih rest

theorem Fails.foldlM {α β : Type} {f : β → α → Except Error β} {list : List α} {start : β}
    (each : ∀ b, ∀ a ∈ list, Fails allowed (f b a))
    : Fails allowed (list.foldlM f start) := by
  induction list generalizing start with
  | nil => exact Alike.ok trivial
  | cons a list ih =>
      rw [List.foldlM_cons]
      refine (each start a List.mem_cons_self).seq fun b => ?_
      exact ih fun b a member => each b a (List.mem_cons_of_mem _ member)

/-- Stopping on purpose is one more way to fail. -/
theorem Fails.when {α β : Type} {e : Error} {failed : Bool} {stop : β → Except Error α}
    {rest : Except Error α} (h : allowed e) (next : Fails allowed rest)
    : Fails allowed (if failed then throw e >>= stop else rest) := by
  cases failed with
  | true => exact Alike.fail h
  | false => exact next

theorem Fails.unless {e : Error} {ok : Bool} (h : allowed e)
    : Fails allowed (if ok then .ok () else .error e) := by
  cases ok with
  | true => exact Alike.ok trivial
  | false => exact Alike.fail h

-----------------------------------------------------------------------------------------
-- Values and types
-----------------------------------------------------------------------------------------

namespace Check

variable {o : CheckOptions} {t : TypeNode}

variable {check : Value → Except Error Unit}

/-- Where items are refused, so are lists. The parts of a check follow in their order. -/
theorem items_refuses (each : ∀ v, Fails Error.Refusal (check v)) (index : Nat) (vs : List Value)
    : Fails Error.Refusal (items t check index vs) := by
  induction vs generalizing index with
  | nil => exact Alike.ok trivial
  | cons v vs ih =>
      rw [items]
      split
      · exact ih (index + 1)
      · exact Alike.fail trivial
      · rename_i e _ failed
        exact Alike.fail ((each v).error e failed)

theorem array_refuses (each : ∀ v, Fails Error.Refusal (check v)) (v : Value)
    : Fails Error.Refusal (array o t check v) := by
  unfold array
  split
  · exact items_refuses each 0 _
  · cases o.nullAsArray with
    | true => exact Alike.ok trivial
    | false => exact Alike.fail trivial
  · exact Alike.fail trivial

theorem scalar_refuses (v : Value) : Fails Error.Refusal (scalar o t v) :=
  Fails.unless trivial

theorem required_refuses (owner : TypeNode) (p : Property)
    (members : Option (List (String × Value)))
    : Fails Error.Refusal (required o owner p members) := by
  unfold required
  repeat' split
  all_goals first | exact Alike.ok trivial | exact Alike.fail trivial

theorem ofProperty_refuses {e : Error} (h : e.Refusal) (p : Property) (v : Value)
    : (ofProperty p v e).Refusal := by
  unfold ofProperty
  split
  · trivial
  · trivial
  · exact h

theorem property_refuses {p : Property} (types : ∀ v, Fails Error.Refusal (single o p.type v))
    (owner : TypeNode) (members : Option (List (String × Value)))
    : Fails Error.Refusal (property o owner members p) := by
  obtain ⟨type, isRequired, name⟩ := p
  refine (required_refuses owner _ members).bind fun _ _ => ?_
  have checked (v : Value)
      : Fails Error.Refusal (if type.isArray then array o type (single o type) v else single o type v) := by
    split
    · exact array_refuses types v
    · exact types v
  cases members.bind (Keyed.get? · name) with
  | none => exact Alike.ok trivial
  | some v =>
      cases skipped : !isRequired && v.isZero with
      | true =>
          simp only [skipped, if_true]
          exact Alike.ok trivial
      | false =>
          have checked : Fails Error.Refusal
              (if type.isArray then array o type (single o type) v else single o type v) := by
            split
            · exact array_refuses types v
            · exact types v
          simp only [skipped, Bool.false_eq_true, if_false]
          generalize (if type.isArray then array o type (single o type) v
            else single o type v) = result at checked ⊢
          cases result with
          | ok => exact Alike.ok trivial
          | error e => exact Alike.fail (ofProperty_refuses (checked.error e rfl) _ v)

/-- Where the types of properties refuse values, the properties refuse objects. -/
theorem checkProperties_refuses {properties : Properties}
    (types : ∀ key p, (key, p) ∈ properties → ∀ v, Fails Error.Refusal (single o p.type v))
    (owner : TypeNode) (members : Option (List (String × Value)))
    : Fails Error.Refusal (checkProperties o owner properties members) := by
  induction properties with
  | nil => exact Alike.ok trivial
  | cons entry properties ih =>
      obtain ⟨key, p⟩ := entry
      refine (property_refuses (types key p List.mem_cons_self) owner members).bind fun _ _ => ?_
      exact ih fun key p member => types key p (List.mem_cons_of_mem _ member)

theorem single_refuses (v : Value) : Fails Error.Refusal (single o t v) := by
  induction t using TypeNode.induct generalizing v with
  | step t ih =>
      rw [single_eq]
      split
      · split
        · exact Alike.ok trivial
        · split
          · exact checkProperties_refuses ih t _
          · exact checkProperties_refuses ih t _
          · exact Alike.fail trivial
      · exact scalar_refuses v

end Check

/-- A check fails with refusals only, by induction on the type. -/
theorem TypeNode.check_refuses (t : TypeNode) (v : Value) (o : CheckOptions)
    : Fails Error.Refusal (t.check v o) := by
  unfold TypeNode.check
  split
  · exact Check.array_refuses Check.single_refuses v
  · exact Check.single_refuses v

/-- A key that is no scalar is the one thing that decoding a value stumbles over. -/
theorem Yaml.Node.keyText_fails (h : allowed (.decode "<key>" .keyNotScalar))
    : ∀ node : Yaml.Node, Fails allowed node.keyText
  | .null | .bool _ | .num _ | .str _ => Alike.ok trivial
  | .tagged _ content => content.keyText_fails h
  | .seq _ | .map _ => Alike.fail h

mutual

/-- Of values, keys are all that may fail. -/
theorem Value.ofNode_fails (h : allowed (.decode "<key>" .keyNotScalar))
    : ∀ node : Yaml.Node, Fails allowed (ofNode node)
  | .null | .bool _ | .num _ | .str _ => Alike.ok trivial
  | .seq items => Alike.map ((ofItems_fails h items).mono fun _ _ => trivial)
  | .map entries => Alike.map ((ofEntries_fails h entries).mono fun _ _ => trivial)
  | .tagged _ content => ofNode_fails h content

theorem Value.ofItems_fails (h : allowed (.decode "<key>" .keyNotScalar))
    : ∀ items : List Yaml.Node, Fails allowed (ofItems items)
  | [] => Alike.ok trivial
  | item :: items =>
      (ofNode_fails h item).bind fun _ _ => (ofItems_fails h items).bind fun _ _ =>
        Alike.ok trivial

theorem Value.ofEntries_fails (h : allowed (.decode "<key>" .keyNotScalar))
    : ∀ entries : List (Yaml.Node × Yaml.Node), Fails allowed (ofEntries entries)
  | [] => Alike.ok trivial
  | (key, node) :: entries =>
      (key.keyText_fails h).bind fun _ _ => (ofNode_fails h node).bind fun _ _ =>
        (ofEntries_fails h entries).bind fun _ _ => Alike.ok trivial

end

/-- Values are decoded before files and annotations matter. -/
theorem Value.ofNode_early (node : Yaml.Node) : FailsEarly (ofNode node) :=
  ofNode_fails ⟨nofun, nofun⟩ node

-----------------------------------------------------------------------------------------
-- Reviews
-----------------------------------------------------------------------------------------

namespace Review

/-- So are unknown keys found. -/
theorem unknownKey_early (site : Site) : FailsEarly (unknownKey site) := by
  have reject (m : Method) (node : String) : FailsEarly (unknownKey.reject m node) := by
    unfold unknownKey.reject
    split
    · exact Alike.ok trivial
    · exact Alike.fail ⟨nofun, nofun⟩
  cases site with
  | method m => exact reject m "method"
  | trait lead t => exact reject t.method "trait"
  | typeNode | annotations => exact Alike.ok trivial

/-- Where annotations stand is known without files. -/
theorem annotationTargets_inner (site : Site) : FailsInner (annotationTargets site) := by
  cases site with
  | annotations lead targets annotations =>
      refine Fails.forM fun entry _ => ?_
      obtain ⟨_, a⟩ := entry
      dsimp only
      cases a.declared with
      | none => exact Alike.ok trivial
      | some declared => exact Fails.unless nofun
  | typeNode | trait | method => exact Alike.ok trivial

/-- Examples are refused as any value is. -/
theorem examples_refuses (o : CheckOptions) (site : Site)
    : Fails Error.Refusal (examples o site) := by
  cases site with
  | typeNode t =>
      refine Fails.forM fun e _ => ?_
      split
      · exact t.check_refuses _ o
      · exact Alike.ok trivial
  | annotations | trait | method => exact Alike.ok trivial

/-- A review reads no files, so it does not fail for any. -/
theorem run_inner (s : Settings) (target : Target) (d : Document)
    : FailsInner (run s target d) := by
  unfold run
  refine (Fails.forM fun site _ => (unknownKey_early site).allow fun _ h => h.inner).bind
    fun _ _ => ?_
  refine (Fails.forM fun site _ => annotationTargets_inner site).bind fun _ _ => ?_
  refine Fails.when (e := .unusedAnnotations _) nofun ?_
  refine Fails.when (e := .unusedTraits _) nofun ?_
  exact Fails.forM fun site _ => (examples_refuses s.check site).allow fun _ h => h.inner

end Review

end Raml
