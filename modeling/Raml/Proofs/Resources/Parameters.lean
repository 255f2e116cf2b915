import Mathlib.Data.List.TakeWhile
import Raml.Check
import Raml.Pass.Fill
import Raml.Proofs.Documents.Reshaped
import Raml.Proofs.Resources.Paths

/-! Parameters that the keys of resources ask for.

A key names parameters in braces, and is read from the left. Each resource gets those that its own
key names and that it does not declare; the keys above it and below it make no difference.
-/

namespace Raml

-----------------------------------------------------------------------------------------
-- Names in braces
-----------------------------------------------------------------------------------------

/-- Somewhere in a text stands a name in braces: an opening one, something, and the next closing
one. -/
structure Braced (text before name after : List Char) : Prop where
  split : text = before ++ '{' :: (name ++ '}' :: after)
  some : name ≠ []
  closed : '}' ∉ name

/-- The names in braces, from left to right: of all of them the one that begins first, and those
behind it. -/
inductive Scans : List Char → List String → Prop where
  | done {text : List Char} (h : ∀ before name after, ¬Braced text before name after)
      : Scans text []
  | next {text before name after : List Char} {names : List String}
      (h : Braced text before name after)
      (first : ∀ before' name' after', Braced text before' name' after'
        → before.length ≤ before'.length)
      (rest : Scans after names)
      : Scans text (String.ofList name :: names)

namespace Braced

variable {text before before' name name' after after' rest : List Char} {c : Char}

/-- A name in braces stays one behind another character. -/
theorem cons (h : Braced text before name after) : Braced (c :: text) (c :: before) name after :=
  ⟨by rw [h.split, List.cons_append], h.some, h.closed⟩

/-- A name in braces either begins with the text or stands behind the first character. -/
theorem cons_cases (h : Braced (c :: rest) before name after)
    : before = [] ∧ c = '{' ∧ rest = name ++ '}' :: after
      ∨ ∃ before', before = c :: before' ∧ Braced rest before' name after := by
  cases before with
  | nil =>
      obtain ⟨rfl, split⟩ := List.cons.inj h.split
      exact Or.inl ⟨rfl, rfl, split⟩
  | cons d before =>
      obtain ⟨rfl, split⟩ := List.cons.inj h.split
      exact Or.inr ⟨before, rfl, split, h.some, h.closed⟩

/-- The closing brace of a name is the first one behind it. -/
theorem takeWhile_eq (closed : '}' ∉ name) (after : List Char)
    : (name ++ '}' :: after).takeWhile (· ≠ '}') = name := by
  have passes : ∀ c ∈ name, decide (c ≠ '}') = true := fun c member =>
    decide_eq_true fun brace => closed (brace ▸ member)
  rw [List.takeWhile_append_of_pos passes]
  simp

/-- Where a brace opens, there is one name at most. -/
theorem unique (h : Braced text before name after) (h' : Braced text before' name' after')
    (same : before.length = before'.length)
    : name = name' ∧ after = after' := by
  obtain ⟨-, inside⟩ := List.append_inj (h.split.symm.trans h'.split) same
  have inside := (List.cons.inj inside).2
  have names : name = name' := by
    rw [← takeWhile_eq h.closed after, inside, takeWhile_eq h'.closed]
  subst names
  exact ⟨rfl, (List.cons.inj (List.append_cancel_left inside)).2⟩

end Braced

namespace Scans

variable {text rest : List Char} {names : List String} {c : Char}

/-- A character that no name begins with may be left out. -/
theorem skip (h : Scans rest names)
    (outside : ∀ name after, ¬Braced (c :: rest) [] name after)
    : Scans (c :: rest) names := by
  have behind {before name after : List Char} (h : Braced (c :: rest) before name after)
      : ∃ before', before = c :: before' ∧ Braced rest before' name after := by
    rcases h.cons_cases with ⟨rfl, -⟩ | behind
    · exact absurd h (outside _ _)
    · exact behind
  cases h with
  | done none =>
      refine .done fun before name after h => ?_
      obtain ⟨before', -, inside⟩ := behind h
      exact none _ _ _ inside
  | next own first others =>
      refine .next own.cons (fun before name after h => ?_) others
      obtain ⟨before', rfl, inside⟩ := behind h
      exact Nat.succ_le_succ (first _ _ _ inside)

/-- There is one way to read a text from the left, by induction on the reading. -/
theorem unique (h : Scans text names) {names' : List String} (h' : Scans text names')
    : names = names' := by
  induction h generalizing names' with
  | done none =>
      cases h' with
      | done => rfl
      | next own => exact absurd own (none _ _ _)
  | next own first _ ih =>
      cases h' with
      | done none => exact absurd own (none _ _ _)
      | next own' first' others =>
          obtain ⟨rfl, rfl⟩ := own.unique own'
            (Nat.le_antisymm (first _ _ _ own') (first' _ _ _ own))
          rw [ih others]

end Scans

/-- What is dropped up to the first closing brace stands before it. -/
theorem split_of_dropWhile {rest after : List Char} {c : Char}
    (h : rest.dropWhile (· ≠ '}') = c :: after)
    : rest = rest.takeWhile (· ≠ '}') ++ '}' :: after ∧ '}' ∉ rest.takeWhile (· ≠ '}') := by
  have some : rest.dropWhile (· ≠ '}') ≠ [] := h ▸ List.cons_ne_nil c after
  have first : (rest.dropWhile (· ≠ '}')).head some = c := by simp only [h, List.head_cons]
  have brace : c = '}' :=
    not_not.mp (of_decide_eq_false (first ▸ List.head_dropWhile_not (· ≠ '}') some))
  subst brace
  refine ⟨h ▸ List.takeWhile_append_dropWhile.symm, fun member => ?_⟩
  simpa using List.mem_takeWhile_imp member

/-- At a brace the next one that closes is looked for. -/
theorem bracedNames_brace (rest : List Char)
    : bracedNames ('{' :: rest)
      = match rest.dropWhile (· ≠ '}') with
        | [] => []
        | _ :: after =>
            if (rest.takeWhile (· ≠ '}')).isEmpty then bracedNames rest
            else String.ofList (rest.takeWhile (· ≠ '}')) :: bracedNames after := by
  rw [bracedNames, if_pos rfl]
  split <;> simp only [*]

/-- The names that are computed are those that are read from the left, by induction on the text. -/
theorem scans_bracedNames (text : List Char) : Scans text (bracedNames text) := by
  induction text using bracedNames.induct with
  | case1 =>
      rw [bracedNames]
      exact .done fun before name after h => by simpa using h.split
  | case2 rest unclosed =>
      rw [bracedNames_brace, unclosed]
      -- Behind a name there is a closing brace, and the text has none.
      have absent : '}' ∉ '{' :: rest := by simpa using List.dropWhile_eq_nil_iff.mp unclosed '}'
      exact .done fun before name after h => absent (h.split ▸ by simp)
  | case3 rest name c after split empty ih =>
      have empty : (rest.takeWhile (· ≠ '}')).isEmpty = true := empty
      simp only [bracedNames_brace, split, empty, if_true]
      refine ih.skip fun other behind h => h.some ?_
      obtain ⟨-, -, same⟩ | ⟨before, apart, -⟩ := h.cons_cases
      · rw [← Braced.takeWhile_eq h.closed behind, ← same]
        exact List.isEmpty_iff.mp empty
      · cases apart
  | case4 rest name c after split some ih =>
      have full : (rest.takeWhile (· ≠ '}')).isEmpty = false := eq_false_of_ne_true some
      simp only [bracedNames_brace, split, full, Bool.false_eq_true, if_false]
      obtain ⟨whole, closed⟩ := split_of_dropWhile split
      have own : Braced ('{' :: rest) [] name after :=
        ⟨congrArg _ whole, mt List.isEmpty_iff.mpr some, closed⟩
      exact .next own (fun _ _ _ _ => Nat.zero_le _) ih
  | case5 c rest other ih =>
      rw [bracedNames, if_neg other]
      refine ih.skip fun name after h => ?_
      obtain ⟨-, brace, -⟩ | ⟨before, apart, -⟩ := h.cons_cases
      · exact other brace
      · cases apart

/-- Names are read from a key as they stand in it. -/
theorem scans_iff {text : List Char} {names : List String}
    : Scans text names ↔ bracedNames text = names :=
  ⟨fun h => (scans_bracedNames text).unique h, fun h => h ▸ scans_bracedNames text⟩

-----------------------------------------------------------------------------------------
-- Declarations of parameters
-----------------------------------------------------------------------------------------

namespace Properties

/-- The names that are not declared are added in order, once each. -/
theorem addBraced_eq (key : String) (ps : Properties)
    : ps.addBraced key
      = ps ++ (Keyed.missingNames ps (bracedNames key.toList)).map fun name =>
          (name, .undeclared name) :=
  Keyed.foldl_missing_eq Property.undeclared _ ps

/-- The second time all of them are declared. -/
theorem addBraced_again (key : String) (ps : Properties)
    : (ps.addBraced key).addBraced key = ps.addBraced key := by
  rw [addBraced_eq key (ps.addBraced key), addBraced_eq key ps, Keyed.missingNames_append,
    List.map_nil, List.append_nil]

end Properties

/-- A parameter that nothing declares takes any value, and has to be given. -/
theorem Property.undeclared_spec (name : String)
    : (undeclared name).name = name ∧ (undeclared name).required = true
      ∧ ∀ v o, (undeclared name).type.check v o = .ok () :=
  ⟨rfl, rfl, fun _ _ => rfl⟩

-----------------------------------------------------------------------------------------
-- Resources
-----------------------------------------------------------------------------------------

namespace Resource

/-- What becomes of a resource behind its keys: the parameters that it declares come first, and
behind them stand those that the last key names, once each. All else is as it was. -/
structure Completed (chain chain' : List String × Resource) : Prop where
  keys : chain'.1 = chain.1
  kept : chain'.2
    = { chain.2 with
        uriParameters := chain'.2.uriParameters
        resources := chain'.2.resources }
  parameters : ∃ key names, chain.1.getLast? = some key ∧ Scans key.toList names
    ∧ chain'.2.uriParameters
      = chain.2.uriParameters
        ++ (Keyed.missingNames chain.2.uriParameters names).map fun name =>
            (name, .undeclared name)

/-- A resource is completed wherever it stands. -/
theorem Completed.behind {chain chain' : List String × Resource} (h : Completed chain chain')
    (key : String)
    : Completed (key :: chain.1, chain.2) (key :: chain'.1, chain'.2) where
  keys := congrArg (key :: ·) h.keys
  kept := h.kept
  parameters := by
    obtain ⟨last, names, isLast, rest⟩ := h.parameters
    exact ⟨last, names, by simp [List.getLast?_cons, isLast], rest⟩

mutual

/-- By induction on the resource, with those below it. -/
theorem completed (key : String)
    : ∀ r : Resource, List.Forall₂ Completed (r.chains key)
        ((r.reshape id Properties.addBraced key).chains key)
  | ⟨_, _, _, _, _, _, _, uriParameters, resources⟩ => by
      rw [reshape_id, chains_eq, chains_eq]
      refine .cons ⟨rfl, rfl, key, _, rfl, scans_bracedNames _, ?_⟩ ?_
      · exact Properties.addBraced_eq key uriParameters
      · rw [List.forall₂_map_left_iff, List.forall₂_map_right_iff]
        exact (completed_below resources).imp fun _ _ h => h.behind key

theorem completed_below
    : ∀ resources : List (String × Resource), List.Forall₂ Completed (resourceChains resources)
        (resourceChains (reshapeResources id Properties.addBraced resources))
  | [] => .nil
  | (key, r) :: resources => List.rel_append (completed key r) (completed_below resources)

end

end Resource

-----------------------------------------------------------------------------------------
-- Documents
-----------------------------------------------------------------------------------------

namespace Pass

/-- The pass changes nothing but parameters of resources, and never fails. -/
theorem fillUriParameters_reshapes
    : fillUriParameters.Reshapes (fun _ => false) id Properties.addBraced where
  type _ _ _ := rfl
  properties _ _ := rfl
  annotations _ _ _ := rfl
  annotationTypes _ := rfl
  trait _ _ := rfl
  uriParameters _ _ := rfl
  bodies _ := rfl

/-- So the whole run is a change of resources. -/
theorem run_fillUriParameters_eq (target : Target) (d : Document)
    : fillUriParameters.run target d
      = .ok { d with resources := reshapeResources id Properties.addBraced d.resources } := by
  have settles := fillUriParameters_reshapes.run target d
  rw [Settles, Document.reshape_id] at settles
  simpa using settles

/-- The pass never fails. Each resource, wherever it stands, keeps the parameters that it declares,
and behind them it gets those that its own key names and that it does not declare, once each, in the
order in which they come first; they take any value and have to be given. Nothing else is changed,
and a second run changes nothing at all. -/
theorem run_fillUriParameters (target : Target) (d : Document)
    : ∃ resources, fillUriParameters.run target d = .ok { d with resources }
        ∧ List.Forall₂ Resource.Completed (resourceChains d.resources) (resourceChains resources)
        ∧ (∀ name, (Property.undeclared name).name = name
          ∧ (Property.undeclared name).required = true
          ∧ ∀ v o, (Property.undeclared name).type.check v o = .ok ())
        ∧ fillUriParameters.run target { d with resources } = .ok { d with resources } := by
  refine ⟨_, run_fillUriParameters_eq target d, Resource.completed_below d.resources,
    Property.undeclared_spec, ?_⟩
  rw [run_fillUriParameters_eq, reshapeResources_again Properties.addBraced_again]

end Pass

end Raml
