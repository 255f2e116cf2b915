import Raml.Proofs.Resolution.Run

/-! Look-ups during resolution: each one follows the traversal and continues the run.

A look-up that succeeds leaves the table that the run has come to with what the traversal completes,
and answers what the name is found to be in that table. One that fails has met a name without a
declaration, or a cycle of base links.
-/

namespace Raml.Resolver

open Relation (TransGen)
open Traversal (Completed visit)

/-- The errors that resolution may end in. -/
inductive Failure (outer : String → Option TypeNode) (declared : Types) : Error → Prop where
  | undefined {name : String} (missing : find? outer declared name = none)
      (referred : ∃ other, Refers declared other name)
      : Failure outer declared (.typeUndefined name)
  | cycle {name : String} {chain : List String} (first : chain.head? = some name)
      (last : chain.getLast? = some name) (proper : 1 < chain.length)
      (links : chain.IsChain (BaseLink declared))
      : Failure outer declared (.cyclicType name chain)

/-- The names that can be entered: those in `free` that belong to no other library. -/
def undotted (free : List String) : List String := free.filter fun name => !isQualified name

/-- What a look-up ends in that started when `done` was completed. -/
structure Found (outer : String → Option TypeNode) (declared : Types) (free chain : List String)
    (done : Completed) (name : String) (answer : Option TypeNode) (types : Types) : Prop where
  run : Run outer declared (visit (references declared) (undotted free) chain done name) types
  settled : Settled outer (visit (references declared) (undotted free) chain done name) chain name
  answer : outside chain (find? outer types) name = answer
  acyclic : ¬OnBaseCycle declared name

section Equations

variable {outer : String → Option TypeNode} {free : List String} {chain : List Link}
variable {name : String} {inProperty : Bool}

/-- A name with a point is looked up outside. -/
theorem base_of_qualified (h : isQualified name = true)
    : base outer free chain name inProperty
      = match outer name with
        | some found => pure (some found)
        | none => throw (.typeUndefined name) := by
  rw [base, if_pos h]
  rfl

/-- A name that is under resolution is not found, or it is a cycle if only bases have led back to
it. -/
theorem base_of_again {first : Link} {after : List Link} (h : isQualified name = false)
    (again : chainFrom name chain = first :: after)
    : base outer free chain name inProperty
      = if inProperty || after.any Link.viaProperty then pure none
        else throw (.cyclicType name ((first :: after).map Link.name ++ [name])) := by
  rw [base, h, again]
  rfl

variable {types : Types} {t : TypeNode}

/-- A name without a declaration is an error. -/
theorem base_run_of_missing (h : isQualified name = false) (new : chainFrom name chain = [])
    (missing : Keyed.get? types name = none)
    : (base outer free chain name inProperty).run types = .error (.typeUndefined name) := by
  rw [base, h, new]
  simp only [Bool.false_eq_true, ↓reduceIte, dite_eq_ite, StateT.run_bind, StateT.run_get,
    pure_bind, missing, StateT.run_throw]
  rfl

/-- A type that is resolved is found as it is. -/
theorem base_run_of_resolved (h : isQualified name = false) (new : chainFrom name chain = [])
    (found : Keyed.get? types name = some t) (resolved : t.resolved = true)
    : (base outer free chain name inProperty).run types = .ok (some t, types) := by
  rw [base, h, new]
  simp only [Bool.false_eq_true, ↓reduceIte, dite_eq_ite, StateT.run_bind, StateT.run_get,
    pure_bind, found, resolved, StateT.run_pure]
  rfl

/-- Any other type is filled with one name less that may be entered, and put in place. -/
theorem base_run_of_free (h : isQualified name = false) (new : chainFrom name chain = [])
    (found : Keyed.get? types name = some t) (unresolved : t.resolved = false)
    (entered : name ∈ free)
    : (base outer free chain name inProperty).run types
      = (do
          let t ← t.fillWith (base outer (free.erase name) (chain ++ [⟨name, inProperty⟩])) false
          modify fun types => Keyed.insert types name t
          return some t : StateT Types (Except Error) (Option TypeNode)).run types := by
  rw [base, h, new]
  simp [found, unresolved, entered]

end Equations

-----------------------------------------------------------------------------------------
-- The cases of a look-up
-----------------------------------------------------------------------------------------

section Cases

variable {outer : String → Option TypeNode} {declared types : Types} {free : List String}
variable {chain : List Link} {done : Completed} {name : String} {inProperty : Bool}

/-- Names of other libraries are found there or nowhere. -/
theorem base_ensures_of_qualified (h : Chain declared chain ⟨name, inProperty⟩)
    (run : Run outer declared done types) (qualified : isQualified name = true)
    : (Guarantee.stateful (Failure outer declared)).ensures types
        (base outer free chain name inProperty)
        (Found outer declared free (chain.map Link.name) done name) := by
  have undeclared : own? declared name = none := own?_of_qualified qualified
  rw [base_of_qualified qualified]
  cases found : outer name with
  | none =>
      refine Guarantee.stateful_of_error rfl (.undefined ?_ (h.referred undeclared))
      simp [find?, qualified, found]
  | some t =>
      have same : visit (references declared) (undotted free) (chain.map Link.name) done name
          = done := Traversal.visit_of_not_free (by simp [undotted, qualified])
      refine Guarantee.stateful_of_ok rfl ⟨by rwa [same], ?_, ?_, ?_⟩
      · exact Or.inl ⟨qualified, by simp [found]⟩
      · have free : name ∉ chain.map Link.name := by
          intro member
          simpa [undeclared] using h.isSome member
        simp [outside, find?, free, qualified, found]
      · intro cyclic
        obtain ⟨t', -, declared, -⟩ := cyclic.base?
        simp [undeclared] at declared

/-- A name under resolution is cut off if a property led back to it, else it is on a base cycle. -/
theorem base_ensures_of_again (h : Chain declared chain ⟨name, inProperty⟩)
    (run : Run outer declared done types) (unqualified : isQualified name = false)
    (under : name ∈ chain.map Link.name)
    : (Guarantee.stateful (Failure outer declared)).ensures types
        (base outer free chain name inProperty)
        (Found outer declared free (chain.map Link.name) done name) := by
  cases again : chainFrom name chain with
  | nil => exact absurd under (chainFrom_eq_nil.mp again)
  | cons first after =>
      have start : first.name = name := name_of_chainFrom again
      rw [base_of_again unqualified again]
      cases through : inProperty || after.any Link.viaProperty with
      | true =>
          have same : visit (references declared) (undotted free) (chain.map Link.name) done name
              = done := Traversal.visit_of_settled (Or.inl under)
          refine Guarantee.stateful_of_ok rfl ⟨by rwa [same], Or.inr (Or.inl under), ?_, ?_⟩
          · simp [outside, under]
          · intro cyclic
            -- From a type on a base cycle, a chain goes on by base links alone.
            have later : (first :: (after ++ [⟨name, inProperty⟩])).Pairwise
                fun a b => OnBaseCycle declared a.name → b.viaProperty = false := by
              refine h.bases.sublist ?_
              have part := (chainFrom_suffix name chain).sublist
              rw [again] at part
              exact part.append_right _
            have direct := fun b member => (List.pairwise_cons.mp later).1 b member (start ▸ cyclic)
            rcases Bool.or_eq_true_iff.mp through with last | inside
            · have := direct ⟨name, inProperty⟩ (by simp)
              simp [last] at this
            · obtain ⟨b, member, property⟩ := List.any_eq_true.mp inside
              simp [direct b (List.mem_append_left _ member)] at property
      | false =>
          obtain ⟨direct, afterwards⟩ := Bool.or_eq_false_iff.mp through
          refine Guarantee.stateful_of_error rfl (.cycle ?_ ?_ ?_ ?_)
          · simp [start]
          · exact List.getLast?_concat
          · simp
          · exact h.baseLinks again direct afterwards

/-- Finding what is resolved completes nothing new. -/
theorem base_ensures_of_resolved (h : Chain declared chain ⟨name, inProperty⟩)
    (run : Run outer declared done types) (unqualified : isQualified name = false)
    (new : name ∉ chain.map Link.name)
    (entered : (own? declared name).isSome → name ∈ free) {t : TypeNode}
    (found : Keyed.get? types name = some t) (resolved : t.resolved = true)
    : (Guarantee.stateful (Failure outer declared)).ensures types
        (base outer free chain name inProperty)
        (Found outer declared free (chain.map Link.name) done name) := by
  refine Guarantee.stateful_of_ok
    (base_run_of_resolved unqualified (chainFrom_eq_nil.mpr new) found resolved) ?_
  by_cases completed : name ∈ done.keys
  · have same : visit (references declared) (undotted free) (chain.map Link.name) done name
        = done := Traversal.visit_of_settled (Or.inr completed)
    refine ⟨by rwa [same], by rw [same]; exact Or.inr (Or.inr completed), ?_, ?_⟩
    · simp [outside, find?, new, unqualified, found]
    · obtain ⟨⟨_, trail⟩, member, rfl⟩ := List.mem_map.mp completed
      obtain ⟨t', completion⟩ := run.completion member
      exact completion.acyclic
  -- A type that was declared as resolved refers to nothing.
  · have own : own? declared name = some t := by
      rw [own?_of_unqualified unqualified, ← run.get?_new completed, found]
    have nothing : t.references = [] := by simp [TypeNode.references_def, resolved]
    have step : visit (references declared) (undotted free) (chain.map Link.name) done name
        = done ++ [(name, chain.map Link.name)] := by
      rw [Traversal.visit_of_free new completed, references_of_own? own, nothing, List.foldl_nil]
      simp [undotted, unqualified, entered (by simp [own])]
    have acyclic : ¬OnBaseCycle declared name := by
      intro cyclic
      obtain ⟨t', base, own', base?⟩ := cyclic.base?
      cases own.symm.trans own'
      simp [TypeNode.base?_of_resolved resolved] at base?
    have kept := run.complete own completed h.path acyclic (by simp [nothing])
    rw [TypeNode.fillFrom_of_resolved resolved, Keyed.insert_of_get? found] at kept
    exact ⟨by rwa [step], by rw [step]; exact Or.inr (Or.inr (by simp)),
      by simp [outside, find?, new, unqualified, found], acyclic⟩

end Cases

-----------------------------------------------------------------------------------------
-- Filling a type under resolution
-----------------------------------------------------------------------------------------

section Filling

variable {outer : String → Option TypeNode} {declared : Types}

/-- Where resolution stands after some answers: the run has followed the traversal of the names
asked for, all of which are settled, and none of the answers has changed. -/
structure Underway (outer : String → Option TypeNode) (declared : Types) (free chain : List String)
    (done : Completed) (answers : List (String × Option TypeNode)) (types : Types) : Prop where
  run : Run outer declared
    ((answers.map Prod.fst).foldl (visit (references declared) (undotted free) chain) done) types
  settled : ∀ other ∈ answers.map Prod.fst, Settled outer
    ((answers.map Prod.fst).foldl (visit (references declared) (undotted free) chain) done)
    chain other
  answered : Answered (outside chain (find? outer types)) answers

variable {free chain : List String} {done : Completed} {types : Types}

/-- Before the first answer nothing is settled. -/
theorem Underway.start (run : Run outer declared done types)
    : Underway outer declared free chain done [] types :=
  ⟨run, by simp, by simp [Answered]⟩

/-- After one more look-up, resolution stands where the answer to it is known as well. -/
theorem Underway.found {answers : List (String × Option TypeNode)} {answer : Option TypeNode}
    {name : String} {later : Types} (h : Underway outer declared free chain done answers types)
    (found : Found outer declared free chain ((answers.map Prod.fst).foldl
      (visit (references declared) (undotted free) chain) done) name answer later)
    : Underway outer declared free chain done (answers ++ [(name, answer)]) later := by
  have more := @Traversal.visit_extends (references declared) (undotted free) chain
    ((answers.map Prod.fst).foldl (visit (references declared) (undotted free) chain) done) name
  have run := found.run
  refine ⟨by simpa using run, ?_, ?_⟩
  · intro asked member
    simp only [List.map_append, List.foldl_append, List.map_cons, List.map_nil, List.foldl_cons,
      List.foldl_nil, List.mem_append, List.mem_singleton] at member ⊢
    rcases member with earlier | rfl
    · exact (h.settled asked earlier).mono more
    · exact found.settled
  · intro asked result member
    rcases List.mem_append.mp member with earlier | same
    · have known := h.settled asked (List.mem_map.mpr ⟨_, earlier, rfl⟩)
      rw [h.run.outside_stable run more known]
      exact h.answered asked result earlier
    · cases List.mem_singleton.mp same
      exact found.answer

/-- A name that is taken out can be entered no more. -/
theorem undotted_erase (free : List String) (name : String)
    : undotted (free.erase name) = (undotted free).erase name :=
  (List.erase_filter).symm

/-- A type that is not resolved is not completed, so it is as it was declared. -/
theorem Run.own?_of_unresolved (run : Run outer declared done types) {name : String} {t : TypeNode}
    (unqualified : isQualified name = false) (found : Keyed.get? types name = some t)
    (unresolved : t.resolved = false)
    : name ∉ done.keys ∧ own? declared name = some t := by
  have incomplete : name ∉ done.keys := by
    intro completed
    obtain ⟨⟨_, trail⟩, member, rfl⟩ := List.mem_map.mp completed
    obtain ⟨t', completion⟩ := run.completion member
    cases found.symm.trans completion.entry
    simp [TypeNode.resolved_fillFrom] at unresolved
  exact ⟨incomplete, by rw [own?_of_unqualified unqualified, ← run.get?_new incomplete, found]⟩

section Free

variable {chain : List Link} {name : String} {inProperty : Bool} {t : TypeNode}
  (h : Chain declared chain ⟨name, inProperty⟩) (run : Run outer declared done types)
  (pending : ∀ other ∈ chain.map Link.name ++ [name], other ∉ done.keys)
  (own : own? declared name = some t) (unresolved : t.resolved = false)
  (below : ∀ {done' : Completed} {types' : Types} {other : String} {inProperty' : Bool},
    Chain declared (chain ++ [⟨name, inProperty⟩]) ⟨other, inProperty'⟩
    → Run outer declared done' types'
    → (∀ other ∈ chain.map Link.name ++ [name], other ∉ done'.keys)
    → (Guarantee.stateful (Failure outer declared)).ensures types'
        (base outer (free.erase name) (chain ++ [⟨name, inProperty⟩]) other inProperty')
        (Found outer declared (free.erase name) (chain.map Link.name ++ [name]) done' other))

include h run pending own unresolved below

/-- A type that is not resolved is filled, if look-ups below it do what they should. Properties are
looked up only once the base has shown that the type is on no base cycle. -/
theorem fill_ensures_of_free
    : (Guarantee.stateful (Failure outer declared)).ensures types
        (t.fillWith (base outer (free.erase name) (chain ++ [⟨name, inProperty⟩])) false)
        (Ends (fun answers types =>
            Underway outer declared (free.erase name) (chain.map Link.name ++ [name]) done answers
              types
            ∧ ¬OnBaseCycle declared name)
          [] t.references fun find => t.fillFrom find) := by
  let G := Guarantee.stateful (σ := Types) (Failure outer declared)
  refine t.fillWith_ensures G ?_ ?_
  · cases base? : t.base? with
    | none =>
        refine ⟨Underway.start run, fun cyclic => ?_⟩
        obtain ⟨t', base, own', some⟩ := cyclic.base?
        cases own.symm.trans own'
        simp [base?] at some
    | some base =>
        refine G.mono (below (h.base own base?) run pending) fun answer types' ends => ?_
        refine ⟨(Underway.start run).found ends, fun cyclic => ends.acyclic ?_⟩
        exact cyclic.base ⟨t, own, base?⟩
  · rintro - other member answers types' ⟨under, acyclic⟩
    refine G.mono (below (h.property own unresolved member acyclic) under.run ?_)
      fun answer types' ends => ⟨under.found ends, acyclic⟩
    exact fun other inside => Traversal.foldl_visit_outside inside (pending other inside) _

/-- A type that is not resolved is filled and completed, if look-ups below it do what they should.
-/
theorem base_ensures_of_free (unqualified : isQualified name = false)
    (new : name ∉ chain.map Link.name) (entered : name ∈ free)
    (found : Keyed.get? types name = some t)
    : (Guarantee.stateful (Failure outer declared)).ensures types
        (base outer free chain name inProperty)
        (Found outer declared free (chain.map Link.name) done name) := by
  let G := Guarantee.stateful (σ := Types) (Failure outer declared)
  have filled := fill_ensures_of_free h run pending own unresolved below
  refine Guarantee.stateful_congr (base_run_of_free unqualified (chainFrom_eq_nil.mpr new) found
    unresolved entered) (G.bind (G.mono filled ?_))
  rintro result types' ⟨answers, names, ⟨under, acyclic⟩, outcome⟩
  rw [List.nil_append] at under
  have same : result = t.fillFrom _ := outcome _ under.answered
  have incomplete : name ∉ done.keys := pending name (by simp)
  have step : visit (references declared) (undotted free) (chain.map Link.name) done name
      = (answers.map Prod.fst).foldl (visit (references declared) (undotted (free.erase name))
          (chain.map Link.name ++ [name])) done ++ [(name, chain.map Link.name)] := by
    rw [Traversal.visit_of_free new incomplete, references_of_own? own, names, undotted_erase]
    simp [undotted, unqualified, entered]
  have kept := under.run.complete own
    (Traversal.foldl_visit_outside (by simp) incomplete _) h.path acyclic (names ▸ under.settled)
  rw [← same, ← step] at kept
  refine Guarantee.stateful_of_ok rfl ⟨kept, ?_, ?_, acyclic⟩
  · rw [step]
    exact Or.inr (Or.inr (by simp))
  · simp [outside, find?, new, unqualified, Keyed.get?_insert]

end Free

/-- Every look-up follows the traversal, continues the run and answers what the name is found to be
in the table that the run has come to. If it fails, a name has no declaration or there is a cycle of
base links. -/
theorem base_ensures {chain : List Link} {name : String} {inProperty : Bool}
    (h : Chain declared chain ⟨name, inProperty⟩)
    (covered : ∀ other, (own? declared other).isSome → other ∉ chain.map Link.name → other ∈ free)
    (run : Run outer declared done types)
    (pending : ∀ other ∈ chain.map Link.name, other ∉ done.keys)
    : (Guarantee.stateful (Failure outer declared)).ensures types
        (base outer free chain name inProperty)
        (Found outer declared free (chain.map Link.name) done name) := by
  -- The induction is on how many names can still be entered.
  induction size : free.length using Nat.strongRecOn
    generalizing free chain name inProperty done types with
  | ind n ih =>
  cases qualified : isQualified name with
  | true => exact base_ensures_of_qualified h run qualified
  | false =>
  by_cases again : name ∈ chain.map Link.name
  · exact base_ensures_of_again h run qualified again
  cases found : Keyed.get? types name with
  | none =>
      refine Guarantee.stateful_of_error
        (base_run_of_missing qualified (chainFrom_eq_nil.mpr again) found) ?_
      have absent : own? declared name = none := by
        rw [own?_of_unqualified qualified, Keyed.get?_eq_none_iff, ← run.keys_eq,
          ← Keyed.get?_eq_none_iff, found]
      refine .undefined ?_ (h.referred absent)
      simpa [find?, qualified, own?] using absent
  | some t =>
  cases resolved : t.resolved with
  | true =>
      exact base_ensures_of_resolved h run qualified again (covered name · again) found resolved
  | false =>
      obtain ⟨incomplete, own⟩ := run.own?_of_unresolved qualified found resolved
      have entered : name ∈ free := covered name (by simp [own]) again
      have smaller : (free.erase name).length < n := by
        have := List.length_erase_of_mem entered
        have := List.length_pos_of_mem entered
        omega
      refine base_ensures_of_free h run ?_ own resolved
        (fun {done' types' other inProperty'} longer run' pending' => ?_) qualified again entered
        found
      · intro other member
        rcases List.mem_append.mp member with earlier | last
        · exact pending other earlier
        · rwa [List.mem_singleton.mp last]
      · have step := ih _ smaller longer ?_ run' (by simpa using pending') rfl
        · simpa using step
        · intro third declared outside
          simp only [List.map_append, List.map_cons, List.map_nil, List.mem_append,
            List.mem_singleton, not_or] at outside
          exact (List.mem_erase_of_ne outside.2).mpr (covered third declared outside.1)

end Filling

-----------------------------------------------------------------------------------------
-- All declared types
-----------------------------------------------------------------------------------------

variable {outer : String → Option TypeNode} {declared : Types}

/-- The names in the order in which resolution completes them, each with its trail: the names that
were under resolution when it was reached. -/
def order (declared : Types) : Completed :=
  Traversal.completions (references declared) (undotted (Keyed.keys declared))

/-- The names that can be entered at first are those of the library's own types. -/
theorem mem_undotted_iff {name : String}
    : name ∈ undotted (Keyed.keys declared) ↔ (own? declared name).isSome := by
  rw [undotted, List.mem_filter, own?]
  cases isQualified name <;> simp [← Keyed.get?_isSome_iff]

/-- Looking up names in turn follows the traversal of them, by induction on the names. -/
theorem forM_ensures {done : Completed} {types : Types} (run : Run outer declared done types)
    (names : List String) (within : ∀ name ∈ names, (own? declared name).isSome)
    : (Guarantee.stateful (Failure outer declared)).ensures types
        (names.forM fun name => discard (base outer (Keyed.keys declared) [] name false))
        fun _ types' => Run outer declared
          (names.foldl (visit (references declared) (undotted (Keyed.keys declared)) []) done)
          types' := by
  induction names generalizing done types with
  | nil => exact run
  | cons name names ih =>
      have chain : Chain declared [] ⟨name, false⟩ :=
        ⟨List.isChain_singleton _, fun _ => within name List.mem_cons_self,
          List.pairwise_singleton _ _⟩
      have covered : ∀ other, (own? declared other).isSome → other ∉ [].map Link.name
          → other ∈ Keyed.keys declared :=
        fun other own _ => (List.mem_filter.mp (mem_undotted_iff.mpr own)).1
      have first := base_ensures chain covered run (by simp)
      rw [List.forM_eq_forM, List.forM_cons, Functor.discard, map_const, Function.comp_apply,
        map_eq_pure_bind, bind_assoc]
      refine Guarantee.bind _ (Guarantee.mono _ first fun answer types' found => ?_)
      exact Guarantee.bind _ (Guarantee.pure _
        (ih found.run fun name member => within name (List.mem_cons_of_mem _ member)))

/-- Resolution succeeds with a run that completes every declared type of the library, or it fails
because a name has no declaration or there is a cycle of base links. -/
theorem types_cases (outer : String → Option TypeNode) (declared : Types)
    : (∃ resolved, Resolver.types outer declared = .ok resolved
        ∧ Run outer declared (order declared) resolved)
      ∨ ∃ e, Resolver.types outer declared = .error e ∧ Failure outer declared e := by
  have initial : Run outer declared [] declared := .start
  have ensured := forM_ensures initial (undotted (Keyed.keys declared))
    fun name member => mem_undotted_iff.mp member
  have unfolded : Resolver.types outer declared = (do
      return (← ((undotted (Keyed.keys declared)).forM fun name =>
        discard (base outer (Keyed.keys declared) [] name false)).run declared).2) := rfl
  rw [unfolded]
  cases run : StateT.run ((undotted (Keyed.keys declared)).forM fun name =>
      discard (base outer (Keyed.keys declared) [] name false)) declared with
  | ok result =>
      have ends := Guarantee.stateful_ok ensured run
      exact Or.inl ⟨result.2, rfl, ends⟩
  | error e => exact Or.inr ⟨e, rfl, Guarantee.stateful_error ensured run⟩

/-- Each type of the library's own is completed. -/
theorem mem_keys_order {name : String} (h : (own? declared name).isSome)
    : name ∈ (order declared).keys :=
  Traversal.mem_keys_foldl_visit [] (fun _ member => member) name (mem_undotted_iff.mpr h)

/-- The names that are under resolution when a name is reached, outermost first. -/
def trail (declared : Types) (name : String) : List String :=
  ((order declared).get? name).getD []

/-- In the end each type is what its completion says. -/
theorem Run.completion_of_own? {types : Types} (run : Run outer declared (order declared) types)
    {name : String} {t : TypeNode} (found : own? declared name = some t)
    : Completion outer declared (order declared) types name (trail declared name) t := by
  have own : (own? declared name).isSome := by simp [found]
  obtain ⟨⟨_, chain⟩, member, rfl⟩ := List.mem_map.mp (mem_keys_order own)
  obtain ⟨t', completion⟩ := run.completion member
  cases found.symm.trans completion.found
  rwa [trail, Keyed.get?_of_mem run.nodup member]

/-- Each name is completed once, so it has one trail. -/
theorem Run.trail_eq {types : Types} (run : Run outer declared (order declared) types)
    {name : String} {chain : List String} (member : (name, chain) ∈ order declared)
    : trail declared name = chain := by
  rw [trail, Keyed.get?_of_mem run.nodup member]
  rfl

/-- The type that is declared first is reached first, and whatever it leads to is reached with it
under resolution. -/
theorem Run.trail_of_first {types : Types} (run : Run outer declared (order declared) types)
    {first : String} {names : List String} (h : undotted (Keyed.keys declared) = first :: names)
    : trail declared first = []
      ∧ ∀ name, TransGen (Refers declared) first name → (own? declared name).isSome → name ≠ first
        → first ∈ trail declared name := by
  obtain ⟨below, under, settled, within⟩ :=
    Traversal.completions_of_first (references declared) first names
  rw [← h] at within
  refine ⟨run.trail_eq (within.subset (by simp)), fun name reaches own distinct => ?_⟩
  -- When the first type is completed, whatever it leads to is completed as well.
  obtain ⟨before, earlier⟩ := run.of_prefix within
  have closed : ∀ {a b}, a ∈ Keyed.keys (below ++ [(first, [])]) → Refers declared a b
      → (own? declared b).isSome → b ∈ Keyed.keys (below ++ [(first, [])]) := by
    intro a b known refers own
    obtain ⟨⟨_, chain⟩, member, rfl⟩ := List.mem_map.mp known
    obtain ⟨t, completion⟩ := earlier.completion member
    obtain ⟨_, found, mentioned⟩ := refers
    cases found.symm.trans completion.found
    rcases completion.settled b mentioned with ⟨qualified, -⟩ | inside | done
    · simp [own?_of_qualified qualified] at own
    · rcases List.mem_append.mp inside with trail | last
      · exact (settled _ chain member b trail).resolve_left List.not_mem_nil
      · rwa [List.mem_singleton.mp last]
    · exact done
  have completed : name ∈ Keyed.keys (below ++ [(first, [])]) := by
    clear distinct
    induction reaches with
    | single step => exact closed (by simp) step own
    | tail reaches step ih => exact closed (ih (isSome_of_reaches (.single step))) step own
  obtain ⟨⟨_, chain⟩, member, rfl⟩ := List.mem_map.mp completed
  rw [run.trail_eq (within.subset member)]
  rcases List.mem_append.mp member with inside | last
  · rcases under _ _ inside with old | ⟨starts, -⟩
    · cases old
    · exact starts.subset List.mem_cons_self
  · cases List.mem_singleton.mp last
    exact absurd rfl distinct

/-- A type refers to what the run finds: in another library, under resolution or completed. -/
theorem Completion.isSome_find? {done : Completed} {types : Types} {name : String}
    {chain : List String} {t : TypeNode} (h : Completion outer declared done types name chain t)
    (run : Run outer declared done types) {other : String} (mentioned : other ∈ t.references)
    : (find? outer declared other).isSome := by
  have own : (own? declared other).isSome → (find? outer declared other).isSome := by
    unfold own? find?
    split <;> simp
  rcases h.settled other mentioned with ⟨qualified, found⟩ | under | completed
  · simpa [find?, qualified] using found
  · rcases List.mem_append.mp under with inside | same
    · exact own (isSome_of_reaches (reaches_of_path h.path inside))
    · exact own (by simp [List.mem_singleton.mp same, h.found])
  · exact own (run.isSome completed)

end Raml.Resolver
