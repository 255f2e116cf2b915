import Raml.Proofs.Resolution.Libraries
import Raml.Proofs.Resolution.Recorded

/-! Resolution ends.

Look-ups keep the chain of types under resolution in a state here, and nothing but a number keeps
them from going deeper and deeper. Whatever that number is, they take the steps of resolution and
leave the chain as it was, whether they fail or not. Where it exceeds how many types there are, they
find, and make of the table, what look-ups with the names that are left do, and libraries are
resolved as they are without it.
-/

namespace Raml.Resolver

open Relation (ReflTransGen)

-----------------------------------------------------------------------------------------
-- Look-ups
-----------------------------------------------------------------------------------------

/-- What a look-up may answer. -/
inductive Answer where
  | found (t : TypeNode)
  /-- The type is under resolution, and a property has led back to it. -/
  | pending
  | missing

/-- The base that an answer stands for. There has to be one. -/
def Answer.base? (name : String) : Answer → Recorded (Option TypeNode)
  | .found t => pure (some t)
  | .pending => pure none
  | .missing => throw (.failed (.typeUndefined name))

/-- A way to look up names, each one reached through a property or not. -/
abbrev Search := String → Bool → Recorded Answer

/-- Looks up bases. -/
def bases (search : Search) : BaseLookup Recorded := fun name viaProperty =>
  search name viaProperty >>= Answer.base? name

/-- Whether there has to be a base or not, the states are the same. -/
theorem history_bases (search : Search) (h : History) (name : String) (viaProperty : Bool)
    : (after h (bases search name viaProperty)).2 = (after h (search name viaProperty)).2 := by
  rw [bases, after_bind]
  generalize after h (search name viaProperty) = ended
  obtain ⟨answer | halt, h'⟩ := ended
  · rfl
  · cases halt <;> rfl

/-- Enters a type that is not resolved, fills it, leaves it and puts it in place. It is left even if
it cannot be filled. -/
def resolveEntry (inner : Search) (link : Link) (t : TypeNode) : Recorded Answer := do
  become fun s => { s with chain := s.chain ++ [link] }
  let filled ← ending (t.fillWith (bases inner) false)
  become fun s => { s with chain := s.chain.dropLast }
  let filled ← MonadExcept.ofExcept filled
  become fun s => { s with types := Keyed.insert s.types link.name filled }
  return .found filled

/-- Looks up a name, where `inner` looks up the bases of the type that it stands for. -/
def searchWith (outer : String → Option TypeNode) (inner : Search) : Search :=
  fun name viaProperty => do
    if isQualified name then
      match outer name with
      | some t => return .found t
      | none => return .missing
    else
      let s := (← get).now
      match chainFrom name s.chain with
      | first :: later =>
          if viaProperty || later.any Link.viaProperty then return .pending
          else throw (.failed (.cyclicType name ((first :: later).map Link.name ++ [name])))
      | [] =>
          match Keyed.get? s.types name with
          | none => return .missing
          | some t =>
              if t.resolved then return .found t else resolveEntry inner ⟨name, viaProperty⟩ t

/-- Looks up a name, with at most `depth` look-ups inside each other. -/
def search (outer : String → Option TypeNode) : (depth : Nat) → Search
  | 0 => fun _ _ => throw .tooDeep
  | depth + 1 => searchWith outer (search outer depth)

-----------------------------------------------------------------------------------------
-- Depth
-----------------------------------------------------------------------------------------

/-- The names that may still be entered. -/
def State.left (s : State) : List String :=
  (Keyed.keys s.types).filter fun name =>
    (Keyed.get? s.types name).any (!·.resolved) && !s.names.contains name

/-- A name may be entered if its type is not resolved and not under resolution. -/
theorem State.mem_left_iff {s : State} {name : String}
    : name ∈ s.left
      ↔ (∃ t, Keyed.get? s.types name = some t ∧ t.resolved = false) ∧ name ∉ s.names := by
  simp only [left, List.mem_filter, Bool.and_eq_true, Option.any_eq_true, Bool.not_eq_true',
    List.contains_eq_mem, decide_eq_false_iff_not, ← Keyed.get?_isSome_iff]
  constructor
  · rintro ⟨-, found, new⟩
    exact ⟨found, new⟩
  · rintro ⟨⟨t, found, unresolved⟩, new⟩
    exact ⟨by rw [found]; rfl, ⟨t, found, unresolved⟩, new⟩

/-- Where no type has become unresolved, no more names may be entered. -/
theorem State.left_sublist {s s' : State} (evolves : Evolves s.types s'.types)
    (same : s'.chain = s.chain)
    : s'.left.Sublist s.left := by
  rw [left, left, evolves.keys_eq]
  refine List.monotone_filter_right _ fun name pending => ?_
  rw [Bool.and_eq_true] at pending ⊢
  refine ⟨?_, by rw [names, ← same]; exact pending.2⟩
  have entry := evolves.get? name
  generalize Keyed.get? s.types name = before, Keyed.get? s'.types name = later at entry pending ⊢
  cases entry with
  | none => exact pending.1
  | some entry =>
      cases entry with
      | same => exact pending.1
      | resolved unresolved _ => simp [unresolved]

/-- A name that is entered may not be entered again. -/
theorem State.left_enter (types : Types) (chain : List Link) (link : Link)
    : left ⟨types, chain ++ [link]⟩
      = (left ⟨types, chain⟩).filter fun name => name != link.name := by
  rw [left, left, List.filter_filter]
  refine List.filter_congr fun name _ => ?_
  by_cases same : name = link.name <;> simp [names, same]

/-- A type that has been filled is resolved. -/
theorem resolved_of_fillWith {lookup : BaseLookup (StateT Types (Except Error))} {inProperty : Bool}
    {t filled : TypeNode} {types types' : Types}
    (run : (t.fillWith lookup inProperty).run types = .ok (filled, types'))
    : filled.resolved = true := by
  cases resolved : t.resolved with
  | true =>
      rw [TypeNode.fillWith_of_resolved _ _ resolved] at run
      cases run
      exact resolved
  | false =>
      rw [TypeNode.fillWith_eq _ _ resolved, StateT.run_bind] at run
      obtain ⟨⟨base?, _⟩, -, run⟩ := bind_eq_ok_iff.mp run
      rw [StateT.run_bind] at run
      obtain ⟨⟨properties, _⟩, -, run⟩ := bind_eq_ok_iff.mp run
      cases run
      rfl

-----------------------------------------------------------------------------------------
-- Entries
-----------------------------------------------------------------------------------------

section Entries

variable {inner : Search} {outer : String → Option TypeNode} {h : History} {link : Link}
variable {t : TypeNode}

/-- The history in which a type has been entered. -/
def History.enter (h : History) (link : Link) : History :=
  h.become { h.now with chain := h.now.chain ++ [link] }

/-- The history in which the type that was entered last has been left. -/
def History.leave (h : History) : History :=
  h.become { h.now with chain := h.now.chain.dropLast }

/-- The history in which a type has been put in place. -/
def History.complete (h : History) (name : String) (filled : TypeNode) : History :=
  h.become { h.now with types := Keyed.insert h.now.types name filled }

/-- What is looked up inside decides whether a type is put in place, and it is left in either case.
-/
theorem after_resolveEntry
    : after h (resolveEntry inner link t)
      = match after (h.enter link) (t.fillWith (bases inner) false) with
        | (.ok filled, h') => (.ok (.found filled), h'.leave.complete link.name filled)
        | (.error halt, h') => (.error halt, h'.leave) := by
  have entered : h.become { h.now with chain := h.now.chain ++ [link] } = h.enter link := rfl
  rw [resolveEntry, after_bind, after_become, entered]
  simp only [after_bind, after_ending, after_become]
  generalize after (h.enter link) (t.fillWith (bases inner) false) = ended
  obtain ⟨result, h'⟩ := ended
  cases result <;> rfl

/-- Entering a type is a step. -/
theorem next_enter (found : Keyed.get? h.now.types link.name = some t)
    (unresolved : t.resolved = false) (new : link.name ∉ h.now.names)
    : Next h (h.enter link) :=
  ⟨_, .enter found unresolved new, rfl⟩

/-- Leaving a type is a step, and the chain is as it was before the type was entered. -/
theorem next_leave {chain : List Link} (under : h.now.chain = chain ++ [link])
    : Next h h.leave ∧ h.leave.now.chain = chain := by
  have left : h.leave.now.chain = chain := by
    show h.now.chain.dropLast = chain
    rw [under, List.dropLast_concat]
  have step : Step ⟨h.now.types, chain ++ [link]⟩ ⟨h.now.types, chain⟩ := .leave
  refine ⟨⟨h.leave.now, ?_, rfl⟩, left⟩
  rwa [← under, ← left] at step

/-- Putting a type in place is a step. -/
theorem next_complete {filled : TypeNode} (found : Keyed.get? h.now.types link.name = some t)
    (unresolved : t.resolved = false) (resolved : filled.resolved = true)
    (new : link.name ∉ h.now.names)
    : Next h (h.complete link.name filled) :=
  ⟨_, .complete found unresolved resolved new, rfl⟩

variable {deep : Prop} {lookup : BaseLookup (StateT Types (Except Error))}

/-- A type that is filled in the same way is put in place in the same way. -/
theorem follows_resolveEntry (found : Keyed.get? h.now.types link.name = some t)
    (unresolved : t.resolved = false) (new : link.name ∉ h.now.names)
    (fill : Follows deep (h.enter link) (t.fillWith (bases inner) false) (t.fillWith lookup false))
    : Follows deep h (resolveEntry inner link t >>= Answer.base? link.name) (do
        let t ← t.fillWith lookup false
        modify fun types => Keyed.insert types link.name t
        return some t) := by
  have step := after_bind h (resolveEntry inner link t) (Answer.base? link.name)
  rw [after_resolveEntry] at step
  obtain ⟨⟨steps, chain, held⟩, same, ends⟩ := fill
  cases ended : after (h.enter link) (t.fillWith (bases inner) false) with
  | mk result h' =>
      rw [ended] at steps chain held same ends step
      obtain ⟨leave, left⟩ := next_leave chain
      have below : ReflTransGen Next h h'.leave :=
        (ReflTransGen.head (next_enter found unresolved new) steps).tail leave
      have kept (name : String) (member : name ∈ h.now.names)
          : Keyed.get? h'.now.types name = Keyed.get? h.now.types name :=
        held name (by simpa [History.enter, History.become, State.names] using Or.inl member)
      cases result with
      | ok filled =>
          have run : (t.fillWith lookup false).run h.now.types = .ok (filled, h'.now.types) :=
            same _ rfl
          have still : Keyed.get? h'.leave.now.types link.name = some t :=
            (held link.name (by simp [History.enter, History.become, State.names])).trans found
          have complete : Next h'.leave (h'.leave.complete link.name filled) :=
            next_complete still unresolved (resolved_of_fillWith run)
              (by rwa [State.names, left])
          refine ⟨?_, fun outcome ended => ?_, fun _ => by rw [step]; rfl⟩
          · rw [step]
            refine ⟨below.tail complete, left, fun name member => ?_⟩
            have apart : link.name ≠ name := fun same => new (same ▸ member)
            exact (Keyed.get?_insert _ _ _ _).trans ((if_neg apart).trans (kept name member))
          · rw [step] at ended
            cases ended
            rw [StateT.run_bind, run]
            rfl
      | error halt =>
          refine ⟨?_, fun outcome ended => ?_, fun enough => ?_⟩
          · rw [step]
            exact ⟨below, left, kept⟩
          · rw [step] at ended
            cases halt with
            | tooDeep => cases ended
            | failed e =>
                cases ended
                have run : (t.fillWith lookup false).run h.now.types = .error e := same _ rfl
                rw [StateT.run_bind, run]
                rfl
          · rw [step]
            cases halt with
            | tooDeep => exact absurd (ends enough) Bool.false_ne_true
            | failed e => rfl

end Entries

-----------------------------------------------------------------------------------------
-- Searches
-----------------------------------------------------------------------------------------

section Searches

variable {inner : Search} {outer : String → Option TypeNode} {h : History} {name : String}
variable {viaProperty : Bool}

/-- A name with a point is looked up outside. -/
theorem after_searchWith_of_qualified (qualified : isQualified name = true)
    : after h (searchWith outer inner name viaProperty)
      = (.ok (match outer name with
          | some t => .found t
          | none => .missing), h) := by
  rw [searchWith, qualified]
  cases outer name <;> rfl

/-- A name that is under resolution is pending, or a cycle if only bases have led back to it. -/
theorem after_searchWith_of_again {first : Link} {later : List Link}
    (unqualified : isQualified name = false)
    (again : chainFrom name h.now.chain = first :: later)
    : after h (searchWith outer inner name viaProperty)
      = (if viaProperty || later.any Link.viaProperty then .ok .pending
          else .error (.failed (.cyclicType name ((first :: later).map Link.name ++ [name]))),
          h) := by
  rw [searchWith, unqualified, if_neg Bool.false_ne_true, after_bind, after_get]
  simp only [again]
  split <;> rfl

/-- A name without a declaration is missing. -/
theorem after_searchWith_of_missing (unqualified : isQualified name = false)
    (new : chainFrom name h.now.chain = []) (missing : Keyed.get? h.now.types name = none)
    : after h (searchWith outer inner name viaProperty) = (.ok .missing, h) := by
  rw [searchWith, unqualified, if_neg Bool.false_ne_true, after_bind, after_get]
  simp only [new, missing, after_pure]

/-- A declared type is entered unless it is resolved. -/
theorem after_searchWith_of_found {t : TypeNode} (unqualified : isQualified name = false)
    (new : chainFrom name h.now.chain = []) (found : Keyed.get? h.now.types name = some t)
    : after h (searchWith outer inner name viaProperty)
      = if t.resolved then (.ok (.found t), h)
        else after h (resolveEntry inner ⟨name, viaProperty⟩ t) := by
  rw [searchWith, unqualified, if_neg Bool.false_ne_true, after_bind, after_get]
  simp only [new, found]
  split <;> rfl

/-- While a type is filled, its name is left to be entered no more, and no other name has been added.
-/
theorem left_of_entered {h' : History} {link : Link} (inside : Continues (h.enter link) h')
    : h'.now.left.Sublist (h.now.left.filter fun name => name != link.name) := by
  have entered : (h.enter link).now.left = h.now.left.filter fun name => name != link.name :=
    State.left_enter _ _ link
  rw [← entered]
  exact State.left_sublist (evolves_of_steps inside.steps) inside.chain

/-- A type that is entered is filled as resolution fills it, if the look-ups inside it are followed
with the names that are left there: they are fewer, as the one that was entered is no longer free. -/
theorem follows_entered {depth : Nat} {free : List String} (t : TypeNode)
    (member : name ∈ h.now.left) (covered : ∀ other ∈ h.now.left, other ∈ free)
    (inside : ∀ (h : History) (name : String) (viaProperty : Bool) {free : List String},
      (∀ other ∈ h.now.left, other ∈ free)
      → Follows (h.now.left.length < depth) h (bases inner name viaProperty)
          (base outer free h.now.chain name viaProperty))
    : Follows (h.now.left.length < depth + 1) (h.enter ⟨name, viaProperty⟩)
        (t.fillWith (bases inner) false)
        (t.fillWith (base outer (free.erase name) (h.now.chain ++ [⟨name, viaProperty⟩])) false) := by
  refine .fillWith (fun h' continues name' viaProperty' => ?_) t false
  have less := left_of_entered continues
  have fewer : h'.now.left.length < h.now.left.length :=
    less.length_le.trans_lt (List.length_filter_lt_length_iff_exists.mpr ⟨name, member, by simp⟩)
  have chain : h.now.chain ++ [⟨name, viaProperty⟩] = h'.now.chain := continues.chain.symm
  rw [chain]
  refine (inside h' name' viaProperty' fun other left => ?_).weaken (by omega)
  obtain ⟨free, apart⟩ := List.mem_filter.mp (less.subset left)
  exact (List.mem_erase_of_ne (by simpa using apart)).mpr (covered other free)

/-- Whatever the depth is, a look-up follows the one with the names that are left. If it exceeds
their number, it is enough. -/
theorem follows_search (outer : String → Option TypeNode) (depth : Nat) (h : History)
    (name : String) (viaProperty : Bool) {free : List String}
    (covered : ∀ name ∈ h.now.left, name ∈ free)
    : Follows (h.now.left.length < depth) h (bases (search outer depth) name viaProperty)
        (base outer free h.now.chain name viaProperty) := by
  induction depth generalizing h name viaProperty free with
  | zero => exact ⟨.refl h, nofun, fun enough => absurd enough (Nat.not_lt_zero _)⟩
  | succ depth ih =>
      have answered : after h (bases (search outer (depth + 1)) name viaProperty)
          = after h (searchWith outer (search outer depth) name viaProperty
              >>= Answer.base? name) := rfl
      rw [after_bind] at answered
      cases qualified : isQualified name with
      | true =>
          rw [after_searchWith_of_qualified qualified] at answered
          rw [base_of_qualified qualified]
          generalize outer name = found at answered ⊢
          cases found with
          | none => exact .of_error answered rfl
          | some t => exact .of_ok answered rfl
      | false =>
          cases again : chainFrom name h.now.chain with
          | cons first later =>
              rw [after_searchWith_of_again qualified again] at answered
              rw [base_of_again qualified again]
              generalize (viaProperty || later.any Link.viaProperty) = through at answered ⊢
              cases through with
              | true => exact .of_ok answered rfl
              | false => exact .of_error answered rfl
          | nil =>
              have new : name ∉ h.now.names := chainFrom_eq_nil.mp again
              cases found : Keyed.get? h.now.types name with
              | none =>
                  rw [after_searchWith_of_missing qualified again found] at answered
                  exact .of_error answered (base_run_of_missing qualified again found)
              | some t =>
                  rw [after_searchWith_of_found qualified again found] at answered
                  cases resolved : t.resolved with
                  | true =>
                      rw [resolved] at answered
                      exact .of_ok answered (base_run_of_resolved qualified again found resolved)
                  | false =>
                      rw [resolved, if_neg Bool.false_ne_true, ← after_bind] at answered
                      have member : name ∈ h.now.left :=
                        State.mem_left_iff.mpr ⟨⟨t, found, resolved⟩, new⟩
                      refine Follows.congr answered (base_run_of_free qualified again found resolved
                        (covered name member)) ?_
                      exact follows_resolveEntry found resolved new
                        (follows_entered t member covered ih)

/-- A look-up goes on by steps and leaves the chain as it was, whether it fails or not. -/
theorem search_continues (outer : String → Option TypeNode) (depth : Nat) (h : History)
    (name : String) (viaProperty : Bool)
    : Continues h (after h (search outer depth name viaProperty)).2 := by
  rw [← history_bases]
  exact (follows_search outer depth h name viaProperty fun _ => id).continues

end Searches

-----------------------------------------------------------------------------------------
-- All declared types
-----------------------------------------------------------------------------------------

/-- Looks up all declared names in order. What is found is not used. -/
def searchAll (outer : String → Option TypeNode) (depth : Nat) (names : List String)
    : Recorded Unit :=
  names.forM fun name => discard (search outer depth name false)

/-- What is declared is found, or it is under resolution. -/
theorem search_ne_missing (outer : String → Option TypeNode) (depth : Nat) {h : History}
    {name : String} {t : TypeNode} (unqualified : isQualified name = false)
    (found : Keyed.get? h.now.types name = some t)
    : (after h (search outer depth name false)).1 ≠ .ok .missing := by
  cases depth with
  | zero => nofun
  | succ depth =>
      cases again : chainFrom name h.now.chain with
      | cons first later =>
          rw [search, after_searchWith_of_again unqualified again]
          split <;> nofun
      | nil =>
          rw [search, after_searchWith_of_found unqualified again found, after_resolveEntry]
          split
          · nofun
          · split <;> nofun

/-- Unless there is nothing to be found, it does not matter whether there has to be. -/
theorem after_discard_search {search : Search} {h : History} {name : String} {viaProperty : Bool}
    (present : (after h (search name viaProperty)).1 ≠ .ok .missing)
    : after h (discard (search name viaProperty))
      = after h (bases search name viaProperty >>= fun _ => pure ()) := by
  rw [bases, bind_assoc, Functor.discard, map_const, Function.comp_apply, map_eq_pure_bind,
    after_bind, after_bind]
  generalize after h (search name viaProperty) = ended at present ⊢
  obtain ⟨halt | answer, h'⟩ := ended
  · rfl
  · cases answer with
    | found | pending => rfl
    | missing => exact absurd rfl present

/-- A name that is declared is looked up as resolution looks it up. Nothing happens for one with a
point in it. -/
theorem follows_discard_search (outer : String → Option TypeNode) (depth : Nat) {h : History}
    {name : String} {free : List String} (outermost : h.now.chain = [])
    (covered : ∀ name ∈ h.now.left, name ∈ free) (declared : name ∈ Keyed.keys h.now.types)
    : Follows (h.now.left.length < depth) h (discard (search outer depth name false))
        (if isQualified name then pure () else discard (base outer free [] name false)) := by
  cases qualified : isQualified name with
  | true =>
      cases depth with
      | zero => exact ⟨.refl h, nofun, fun enough => absurd enough (Nat.not_lt_zero _)⟩
      | succ depth =>
          refine .of_ok (a := ()) ?_ rfl
          rw [Functor.discard, map_const, Function.comp_apply, map_eq_pure_bind, after_bind, search,
            after_searchWith_of_qualified qualified]
          rfl
  | false =>
      obtain ⟨t, found⟩ := Option.isSome_iff_exists.mp (Keyed.get?_isSome_iff.mpr declared)
      have present := search_ne_missing outer depth qualified found
      have follows := follows_search outer depth h name false covered
      rw [outermost] at follows
      refine Follows.congr (after_discard_search present) ?_ (follows.bind fun _ _ _ => .pure ())
      rw [if_neg Bool.false_ne_true, Functor.discard, map_const, Function.comp_apply,
        map_eq_pure_bind]

/-- All declared names are looked up as resolution does it, one after the other. -/
theorem follows_searchAll (outer : String → Option TypeNode) (depth : Nat) {declared : Types}
    {names : List String} (within : ∀ name ∈ names, name ∈ Keyed.keys declared) {h : History}
    (evolves : Evolves declared h.now.types) (outermost : h.now.chain = [])
    : Follows (declared.length < depth) h (searchAll outer depth names)
        ((undotted names).forM fun name =>
          discard (base outer (Keyed.keys declared) [] name false)) := by
  induction names generalizing h with
  | nil => exact .pure ()
  | cons name names ih =>
      obtain ⟨first, rest⟩ := List.forall_mem_cons.mp within
      have few : h.now.left.length ≤ declared.length := by
        have within : h.now.left.length ≤ (Keyed.keys h.now.types).length :=
          List.length_filter_le _ _
        rwa [evolves.keys_eq, Keyed.keys, List.length_map] at within
      have here := follows_discard_search outer depth outermost
        (fun name left => evolves.keys_eq ▸ (List.mem_filter.mp left).1)
        (evolves.keys_eq.symm ▸ first)
      have follows := (here.weaken few.trans_lt).bind fun _ h' continues =>
        ih rest (evolves.trans (evolves_of_steps continues.steps))
          (continues.chain.trans outermost)
      refine Follows.congr ?_ ?_ follows
      · rw [searchAll, List.forM_eq_forM, List.forM_cons]
        rfl
      · unfold undotted
        cases qualified : isQualified name with
        | true => rw [List.filter_cons_of_neg (by simp [qualified]), if_pos rfl, pure_bind]
        | false =>
            rw [List.filter_cons_of_pos (by simp [qualified]), List.forM_eq_forM, List.forM_cons]
            rfl

-----------------------------------------------------------------------------------------
-- Whole resolutions
-----------------------------------------------------------------------------------------

/-- The history of a resolution that has not begun. -/
def History.start (types : Types) : History := ⟨[], ⟨types, []⟩⟩

/-- Looks up all declared types. -/
def resolution (outer : String → Option TypeNode) (depth : Nat) (declared : Types)
    : Except Halt Unit × History :=
  after (.start declared) (searchAll outer depth (Keyed.keys declared))

/-- The types in the end, if all declared types have been looked up. -/
def typesAt (depth : Nat) (outer : String → Option TypeNode) (declared : Types)
    : Except Halt Types :=
  let (ended, h) := resolution outer depth declared
  ended.map fun _ => h.now.types

/-- Each state follows from the one before by a step. In none of them a type is under resolution
twice, or while it is resolved, and from one to a later one, types have changed only from those that
are not resolved to those that are. In the end, no type is under resolution. -/
structure Orderly (h : History) : Prop where
  steps : h.states.IsChain Step
  sound : ∀ s ∈ h.states, s.Sound
  evolves : h.states.Pairwise fun s s' => Evolves s.types s'.types
  left : h.now.chain = []

section Resolutions

variable (outer : String → Option TypeNode) (depth : Nat) (declared : Types)

/-- Looking up all declared names comes to the same with names left and with a number. -/
theorem follows_resolution
    : Follows (declared.length < depth) (.start declared)
        (searchAll outer depth (Keyed.keys declared))
        ((undotted (Keyed.keys declared)).forM fun name =>
          discard (base outer (Keyed.keys declared) [] name false)) :=
  follows_searchAll outer depth (fun _ => id) (.refl declared) rfl

/-- Whatever the depth is, and whether the resolution fails or not, it is orderly. -/
theorem resolution_orderly : Orderly (resolution outer depth declared).2 := by
  obtain ⟨steps, chain, -⟩ := (follows_resolution outer depth declared).continues
  have follow := isChain_of_steps steps (List.isChain_singleton _)
  have start : State.Sound ⟨declared, []⟩ := ⟨List.nodup_nil, nofun⟩
  exact ⟨follow, sound_of_steps steps (List.forall_mem_singleton.mpr start),
    pairwise_evolves follow, chain⟩

variable {outer depth declared}

/-- A resolution that may be deep enough ends as it should. -/
theorem typesAt_eq (enough : declared.length < depth)
    : typesAt depth outer declared = (Resolver.types outer declared).mapError .failed := by
  have unfolded : Resolver.types outer declared = (do
      return (← ((undotted (Keyed.keys declared)).forM fun name =>
        discard (base outer (Keyed.keys declared) [] name false)).run declared).2) := rfl
  obtain ⟨-, same, ends⟩ := follows_resolution outer depth declared
  specialize ends enough
  rw [typesAt, resolution, unfolded]
  generalize after (.start declared) (searchAll outer depth (Keyed.keys declared)) = result
    at same ends ⊢
  generalize ((undotted (Keyed.keys declared)).forM fun name =>
    discard (base outer (Keyed.keys declared) [] name false)) = resolveAll at same ⊢
  obtain ⟨ended, h⟩ := result
  cases ended with
  | ok =>
      have run : resolveAll.run declared = .ok ((), h.now.types) := same _ rfl
      rw [run]
      rfl
  | error halt =>
      cases halt with
      | tooDeep => exact absurd ends Bool.false_ne_true
      | failed e =>
          have run : resolveAll.run declared = .error e := same _ rfl
          rw [run]
          rfl

end Resolutions

end Raml.Resolver

-----------------------------------------------------------------------------------------
-- Libraries
-----------------------------------------------------------------------------------------

namespace Raml

open Resolver

variable {α β ε ε' : Type}

theorem mapError_bind (g : ε → ε') (x : Except ε α) (f : α → Except ε β)
    : (x >>= f).mapError g = x.mapError g >>= fun a => (f a).mapError g := by
  cases x <;> rfl

namespace Library

/-- Looks up all declared types, with at most `depth` look-ups inside each other. -/
def resolution (depth : Nat) (l : Library) : Except Halt Unit × History :=
  Resolver.resolution l.getType? depth l.linkedTypes

/-- Resolves the types of a library whose nested libraries are resolved, with at most `depth`
look-ups inside each other. -/
def resolveTypesAt (depth : Nat) (l : Library) : Except Halt Library := do
  let types ← Resolver.typesAt depth l.getType? l.linkedTypes
  let annotationTypes ←
    (l.annotationTypes.mapM (l.withTypes types).fillAnnotationType).mapError .failed
  return { l with types, annotationTypes }

mutual

/-- Resolves the declared types of a library and of those nested in it, with at most `depth` look-ups
inside each other. -/
def resolveAt (depth : Nat) : Library → Except Halt Library
  | ⟨usage, schemas, types, traits, resourceTypes, annotationTypes, annotations, securitySchemes,
      uses, location⟩ => do
      let uses ← resolveUsesAt depth uses
      resolveTypesAt depth ⟨usage, schemas, types, traits, resourceTypes, annotationTypes,
        annotations, securitySchemes, uses, location⟩

def resolveUseAt (depth : Nat) : Use → Except Halt Use
  | .external path => .ok (.external path)
  | .loaded library => do return .loaded (← library.resolveAt depth)

def resolveUsesAt (depth : Nat) : List (String × Use) → Except Halt (List (String × Use))
  | [] => .ok []
  | (name, use) :: uses => do
      let use ← resolveUseAt depth use
      return (name, use) :: (← resolveUsesAt depth uses)

end

mutual

/-- How many types are declared in a library or one within it, at most. -/
def mostTypes : Library → Nat
  | ⟨_, _, types, _, _, _, _, _, uses, _⟩ => max types.length (mostTypesOfUses uses)

def mostTypesOfUse : Use → Nat
  | .external _ => 0
  | .loaded library => library.mostTypes

def mostTypesOfUses : List (String × Use) → Nat
  | [] => 0
  | (_, use) :: uses => max (mostTypesOfUse use) (mostTypesOfUses uses)

end

theorem mostTypes_eq (l : Library) : l.mostTypes = max l.types.length (mostTypesOfUses l.uses) := by
  cases l
  rfl

theorem resolveAt_eq (depth : Nat) (l : Library)
    : l.resolveAt depth
      = resolveUsesAt depth l.uses >>= fun uses => resolveTypesAt depth (l.withUses uses) := by
  cases l
  rfl

/-- A number that exceeds how many types there are does not show in one library. -/
theorem resolveTypesAt_of_enough {depth : Nat} {l : Library} (enough : l.types.length < depth)
    : l.resolveTypesAt depth = l.resolveTypes.mapError .failed := by
  have same : l.linkedTypes.length = l.types.length := List.length_map _
  rw [resolveTypes_eq, mapError_bind, resolveTypesAt, typesAt_eq (same.trans_lt enough)]
  refine bind_congr fun types => ?_
  rw [mapError_bind]
  rfl

/-- It does not show in libraries in use if it shows in none of them. -/
theorem resolveUsesAt_of_enough {depth : Nat} {uses : Uses}
    (each : ∀ name used, (name, Use.loaded used) ∈ uses
      → used.resolveAt depth = used.resolve.mapError .failed)
    : resolveUsesAt depth uses = (resolveUses uses).mapError .failed := by
  induction uses with
  | nil => rfl
  | cons entry uses ih =>
      obtain ⟨name, use⟩ := entry
      have first : resolveUseAt depth use = (resolveUse use).mapError .failed := by
        cases use with
        | external => rfl
        | loaded used =>
            rw [resolveUseAt, resolveUse, mapError_bind, each name used List.mem_cons_self]
            rfl
      rw [resolveUsesAt, resolveUses_cons, mapError_bind, first]
      refine bind_congr fun use => ?_
      rw [mapError_bind, ih fun name used member => each name used (List.mem_cons_of_mem _ member)]
      rfl

/-- No library in use declares more types than the most that are declared. -/
theorem mostTypes_le_of_mem {uses : Uses} {name : String} {used : Library}
    (member : (name, Use.loaded used) ∈ uses)
    : used.mostTypes ≤ mostTypesOfUses uses := by
  induction uses with
  | nil => cases member
  | cons entry uses ih =>
      rcases List.mem_cons.mp member with rfl | later
      · exact le_max_left _ _
      · exact (ih later).trans (le_max_right _ _)

/-- A number that exceeds the most that are declared does not show, by induction on what libraries
use. -/
theorem resolveAt_of_enough {depth : Nat} {l : Library} (enough : l.mostTypes < depth)
    : l.resolveAt depth = l.resolve.mapError .failed := by
  induction l using induct with
  | step l ih =>
      rw [mostTypes_eq, Nat.max_lt] at enough
      have uses : resolveUsesAt depth l.uses = (resolveUses l.uses).mapError .failed :=
        resolveUsesAt_of_enough fun name used member =>
          ih name used member ((mostTypes_le_of_mem member).trans_lt enough.2)
      rw [resolveAt_eq, resolve_eq, mapError_bind, uses]
      exact bind_congr fun uses => resolveTypesAt_of_enough enough.1

/-- However the types of a library refer to each other, resolution ends: look-ups that nothing but
the chain keeps from going on are never more inside each other than there are types in one library,
and one. What comes before the end is orderly, however deep look-ups may be, and each of them leaves
the chain as it was, whether it fails or not. -/
theorem resolve_ends (l : Library)
    : (∀ more, l.resolveAt (l.mostTypes + 1 + more) = l.resolve.mapError .failed)
      ∧ ∀ depth, Orderly (l.resolution depth).2
        ∧ ∀ h name viaProperty,
            (after h (search l.getType? depth name viaProperty)).2.now.chain = h.now.chain :=
  ⟨fun more => resolveAt_of_enough (by omega), fun depth =>
    ⟨resolution_orderly l.getType? depth l.linkedTypes, fun h name viaProperty =>
      (search_continues l.getType? depth h name viaProperty).chain⟩⟩

end Library

end Raml
