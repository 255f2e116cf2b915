import Raml.Proofs.Resolution.Filling
import Raml.Proofs.Resolution.Links
import Raml.Proofs.Resolution.Lookup
import Mathlib.Data.List.Nodup

/-! The states that resolution passes through, and computations that record them.

A type that is looked up by its name and is not resolved is entered: its name is put on a chain,
the type is filled, the name is taken off again, and only then the type is put in place. While it is
filled, other types are looked up in the same table, which changes underneath.

Each state follows from the one before by one of three steps, and whatever holds of every state comes
from what these steps keep. A computation takes such steps and leaves the chain as it was, whether it
fails or not, if all that it is made of does. It is compared to one that has a table and nothing
else, since that is how types are resolved.
-/

namespace Raml.Resolver

open Relation (ReflTransGen)

-----------------------------------------------------------------------------------------
-- States and steps
-----------------------------------------------------------------------------------------

/-- The declared types as they are, and those under resolution, outermost first. -/
structure State where
  types : Types
  chain : List Link

namespace State

/-- The names that are under resolution. -/
def names (s : State) : List String := s.chain.map Link.name

/-- No type is under resolution twice, and all that are are declared and not resolved. -/
structure Sound (s : State) : Prop where
  nodup : s.names.Nodup
  pending : ∀ name ∈ s.names, ∃ t, Keyed.get? s.types name = some t ∧ t.resolved = false

end State

/-- What resolution does to its state: it enters a type, leaves the one that was entered last, or
puts a type in place that is under resolution no more. -/
inductive Step : State → State → Prop where
  | enter {types : Types} {chain : List Link} {link : Link} {t : TypeNode}
      (found : Keyed.get? types link.name = some t) (unresolved : t.resolved = false)
      (new : link.name ∉ chain.map Link.name)
      : Step ⟨types, chain⟩ ⟨types, chain ++ [link]⟩
  | leave {types : Types} {chain : List Link} {link : Link}
      : Step ⟨types, chain ++ [link]⟩ ⟨types, chain⟩
  | complete {types : Types} {chain : List Link} {name : String} {t filled : TypeNode}
      (found : Keyed.get? types name = some t) (unresolved : t.resolved = false)
      (resolved : filled.resolved = true) (new : name ∉ chain.map Link.name)
      : Step ⟨types, chain⟩ ⟨Keyed.insert types name filled, chain⟩

/-- Each step keeps states sound. -/
theorem State.Sound.step {s s' : State} (sound : s.Sound) (step : Step s s') : s'.Sound := by
  obtain ⟨nodup, pending⟩ := sound
  cases step with
  | @enter types chain link t found unresolved new =>
      have names : State.names ⟨types, chain ++ [link]⟩
          = State.names ⟨types, chain⟩ ++ [link.name] :=
        List.map_append
      refine ⟨?_, fun name member => ?_⟩
      · rw [names, ← List.concat_eq_append]
        exact nodup.concat new
      · rw [names] at member
        rcases List.mem_append.mp member with earlier | last
        · exact pending name earlier
        · cases List.mem_singleton.mp last
          exact ⟨t, found, unresolved⟩
  | @leave types chain link =>
      have within : (State.names ⟨types, chain⟩).Sublist (State.names ⟨types, chain ++ [link]⟩) :=
        (List.sublist_append_left _ _).map _
      exact ⟨within.nodup nodup, fun name member => pending name (within.subset member)⟩
  | @complete types chain name t filled found unresolved resolved new =>
      refine ⟨nodup, fun other member => ?_⟩
      have apart : name ≠ other := fun same => new (same ▸ member)
      obtain ⟨t', found', pending⟩ := pending other member
      exact ⟨t', by rw [Keyed.get?_insert, if_neg apart, found'], pending⟩

/-- Every type is the same as before, or it has been resolved, which happens once. -/
inductive Entry : TypeNode → TypeNode → Prop where
  | same (t : TypeNode) : Entry t t
  | resolved {t t' : TypeNode} (before : t.resolved = false) (after : t'.resolved = true)
      : Entry t t'

/-- What is resolved once is not resolved again. -/
theorem Entry.trans {t t' t'' : TypeNode} (h : Entry t t') (h' : Entry t' t'') : Entry t t'' := by
  cases h with
  | same => exact h'
  | resolved before after =>
      cases h' with
      | same => exact .resolved before after
      | resolved again _ => simp [after] at again

/-- The same keys in the same order, with types that are the same or have been resolved. -/
def Evolves (types types' : Types) : Prop :=
  List.Forall₂ (fun entry entry' => entry'.1 = entry.1 ∧ Entry entry.2 entry'.2) types types'

namespace Evolves

theorem refl (types : Types) : Evolves types types :=
  List.forall₂_same.mpr fun entry _ => ⟨rfl, .same entry.2⟩

theorem trans {a b c : Types} (h : Evolves a b) (h' : Evolves b c) : Evolves a c := by
  induction h generalizing c with
  | nil => exact h'
  | cons first _ ih =>
      cases h' with
      | cons first' rest' =>
          exact .cons ⟨first'.1.trans first.1, first.2.trans first'.2⟩ (ih rest')

/-- Putting a type in place that was not resolved is all that changes. -/
theorem insert {types : Types} {name : String} {t filled : TypeNode}
    (found : Keyed.get? types name = some t) (unresolved : t.resolved = false)
    (resolved : filled.resolved = true)
    : Evolves types (Keyed.insert types name filled) := by
  induction types with
  | nil => cases found
  | cons entry types ih =>
      obtain ⟨key, u⟩ := entry
      by_cases same : key = name
      · rw [Keyed.get?_cons, if_pos same] at found
        cases found
        rw [Keyed.insert, if_pos same]
        exact .cons ⟨rfl, .resolved unresolved resolved⟩ (refl types)
      · rw [Keyed.get?_cons, if_neg same] at found
        rw [Keyed.insert, if_neg same]
        exact .cons ⟨rfl, .same u⟩ (ih found)

/-- Names stay in their order. -/
theorem keys_eq {types types' : Types} (h : Evolves types types')
    : Keyed.keys types' = Keyed.keys types := by
  induction h with
  | nil => rfl
  | cons first _ ih => exact congrArg₂ List.cons first.1 ih

/-- Under each name is the same type, or it has been resolved. -/
theorem get? {types types' : Types} (h : Evolves types types') (name : String)
    : Option.Rel Entry (Keyed.get? types name) (Keyed.get? types' name) := by
  induction h with
  | nil => exact .none
  | @cons entry entry' _ _ first _ ih =>
      obtain ⟨key, t⟩ := entry
      obtain ⟨key', t'⟩ := entry'
      obtain ⟨rfl, entry⟩ := first
      by_cases same : key' = name
      · simpa [same] using Option.Rel.some entry
      · simpa [same] using ih

end Evolves

/-- Each step changes types in no other way. -/
theorem Step.evolves {s s' : State} (step : Step s s') : Evolves s.types s'.types := by
  cases step with
  | enter | leave => exact .refl _
  | complete found unresolved resolved _ => exact .insert found unresolved resolved

/-- Whatever lies between two states, the types of the first one have become those of the second. -/
theorem pairwise_evolves {states : List State} (steps : states.IsChain Step)
    : states.Pairwise fun s s' => Evolves s.types s'.types := by
  have : Trans (fun s s' : State => Evolves s.types s'.types)
      (fun s s' : State => Evolves s.types s'.types)
      (fun s s' : State => Evolves s.types s'.types) := ⟨Evolves.trans⟩
  exact (steps.imp fun _ _ => Step.evolves).pairwise

-----------------------------------------------------------------------------------------
-- Recorded computations
-----------------------------------------------------------------------------------------

/-- The state of resolution, and those before it in order. -/
structure History where
  past : List State
  now : State

/-- All states, the last one being that of now. -/
def History.states (h : History) : List State := h.past ++ [h.now]

/-- Goes on to another state. -/
def History.become (h : History) (s : State) : History := ⟨h.states, s⟩

/-- Why a computation is not carried on. -/
inductive Halt where
  | failed (e : Error)
  /-- Look-ups are too deep inside each other. -/
  | tooDeep

/-- Computations with a state that they record. It stays as it is when they fail. -/
abbrev Recorded := ExceptT Halt (StateM History)

variable {α β : Type}

/-- What a computation ends in, and the history behind it. -/
def after (h : History) (x : Recorded α) : Except Halt α × History := Id.run (x.run.run h)

/-- Changes the state. -/
def become (f : State → State) : Recorded Unit := modify fun h => h.become (f h.now)

/-- How a computation ends. What comes behind goes on even if it has failed. -/
def ending (x : Recorded α) : Recorded (Except Halt α) := ExceptT.mk (.ok <$> x.run)

@[simp] theorem after_pure (h : History) (a : α) : after h (pure a) = (.ok a, h) := rfl

@[simp] theorem after_get (h : History) : after h get = (.ok h, h) := rfl

@[simp] theorem after_become (h : History) (f : State → State)
    : after h (become f) = (.ok (), h.become (f h.now)) :=
  rfl

@[simp] theorem after_ending (h : History) (x : Recorded α)
    : after h (ending x) = (.ok (after h x).1, (after h x).2) :=
  rfl

/-- What comes second goes on from the history of what came first, unless this has failed. -/
theorem after_bind (h : History) (x : Recorded α) (f : α → Recorded β)
    : after h (x >>= f)
      = match after h x with
        | (.ok a, h') => after h' (f a)
        | (.error halt, h') => (.error halt, h') := by
  unfold after
  rw [ExceptT.run_bind, StateT.run_bind, Id.run_bind]
  generalize Id.run (x.run.run h) = result
  obtain ⟨result, h'⟩ := result
  cases result <;> rfl

-----------------------------------------------------------------------------------------
-- Steps of a history
-----------------------------------------------------------------------------------------

/-- A history goes on by one step. -/
def Next (h h' : History) : Prop := ∃ s, Step h.now s ∧ h' = h.become s

/-- A history goes on by steps that leave the chain as it was in the end, and the types on it as they
were at any time. -/
structure Continues (h h' : History) : Prop where
  steps : ReflTransGen Next h h'
  chain : h'.now.chain = h.now.chain
  held : ∀ name ∈ h.now.names, Keyed.get? h'.now.types name = Keyed.get? h.now.types name

namespace Continues

variable {h h' h'' : History}

theorem refl (h : History) : Continues h h := ⟨.refl, rfl, fun _ _ => rfl⟩

/-- Steps go on from steps, and types on the chain stay as they were. -/
theorem trans (first : Continues h h') (second : Continues h' h'') : Continues h h'' where
  steps := first.steps.trans second.steps
  chain := second.chain.trans first.chain
  held name member := by
    have later : name ∈ h'.now.names := by rwa [State.names, first.chain]
    exact (second.held name later).trans (first.held name member)

end Continues

/-- Types only change by being resolved, by induction on the steps. -/
theorem evolves_of_steps {h h' : History} (steps : ReflTransGen Next h h')
    : Evolves h.now.types h'.now.types := by
  induction steps with
  | refl => exact .refl _
  | tail _ next ih =>
      obtain ⟨s, step, rfl⟩ := next
      exact ih.trans step.evolves

/-- All states are sound if those before are, by induction on the steps. -/
theorem sound_of_steps {h h' : History} (steps : ReflTransGen Next h h')
    (before : ∀ s ∈ h.states, s.Sound)
    : ∀ s ∈ h'.states, s.Sound := by
  induction steps with
  | refl => exact before
  | @tail h _ _ next ih =>
      obtain ⟨s, step, rfl⟩ := next
      have sound := (ih h.now List.mem_concat_self).step step
      exact List.forall_mem_append.mpr ⟨ih, List.forall_mem_singleton.mpr sound⟩

/-- Each state follows from the one before it. -/
theorem isChain_of_steps {h h' : History} (steps : ReflTransGen Next h h')
    (before : h.states.IsChain Step)
    : h'.states.IsChain Step := by
  induction steps with
  | refl => exact before
  | tail _ next ih =>
      obtain ⟨s, step, rfl⟩ := next
      refine List.isChain_append.mpr
        ⟨ih, List.isChain_singleton _, fun last isLast first isFirst => ?_⟩
      cases isFirst
      cases List.getLast?_concat.symm.trans isLast
      exact step

-----------------------------------------------------------------------------------------
-- Recorded computations and those with the names that are left
-----------------------------------------------------------------------------------------

/-- The outcome of a computation that was not too deep, without its history. -/
def outcome? : Except Halt α × History → Option (Except Error (α × Types))
  | (.ok a, h) => some (.ok (a, h.now.types))
  | (.error (.failed e), _) => some (.error e)
  | (.error .tooDeep, _) => none

/-- A recorded computation goes on by steps and leaves the chain as it was. Its outcome is that of
another computation with the same table, and there is one if it may be as `deep` as it has to. -/
structure Follows (deep : Prop) (h : History) (x : Recorded α) (y : StateT Types (Except Error) α)
    : Prop where
  continues : Continues h (after h x).2
  same : ∀ result ∈ outcome? (after h x), y.run h.now.types = result
  ends : deep → (outcome? (after h x)).isSome

namespace Follows

variable {deep : Prop} {h : History} {x : Recorded α} {y : StateT Types (Except Error) α}

/-- To do nothing is to do nothing in both. -/
theorem pure (a : α) : Follows deep h (pure a) (pure a) where
  continues := .refl h
  same := by
    rintro _ ⟨⟩
    rfl
  ends _ := rfl

/-- Two computations follow others in turn. -/
theorem bind {f : α → Recorded β} {g : α → StateT Types (Except Error) β}
    (first : Follows deep h x y)
    (later : ∀ a h', Continues h h' → Follows deep h' (f a) (g a))
    : Follows deep h (x >>= f) (y >>= g) := by
  obtain ⟨continues, same, ends⟩ := first
  have step := after_bind h x f
  cases ended : after h x with
  | mk result h' =>
      rw [ended] at continues same ends step
      cases result with
      | ok a =>
          obtain ⟨continues', same', ends'⟩ := later a h' continues
          have ran : y.run h.now.types = .ok (a, h'.now.types) := same _ rfl
          refine ⟨by rw [step]; exact continues.trans continues', fun result ended' => ?_,
            fun enough => by rw [step]; exact ends' enough⟩
          rw [step] at ended'
          rw [StateT.run_bind, ran]
          exact same' result ended'
      | error halt =>
          refine ⟨by rw [step]; exact continues, fun result ended' => ?_, fun enough => ?_⟩
          · rw [step] at ended'
            cases halt with
            | tooDeep => cases ended'
            | failed e =>
                cases ended'
                rw [StateT.run_bind, same (.error e) rfl]
                rfl
          · rw [step]
            cases halt with
            | tooDeep => exact absurd (ends enough) Bool.false_ne_true
            | failed e => rfl

/-- A type is filled in the same way if its bases are found in the same way. -/
theorem fillWith {lookup : BaseLookup Recorded} {lookup' : BaseLookup (StateT Types (Except Error))}
    (each : ∀ h', Continues h h' → ∀ name viaProperty,
      Follows deep h' (lookup name viaProperty) (lookup' name viaProperty))
    (t : TypeNode) (inProperty : Bool)
    : Follows deep h (t.fillWith lookup inProperty) (t.fillWith lookup' inProperty) := by
  induction t using TypeNode.induct generalizing inProperty h with
  | step t ih =>
      have properties : ∀ {properties : Properties}, (∀ entry ∈ properties, entry ∈ t.properties)
          → ∀ {h' : History}, Continues h h'
          → Follows deep h' (fillProperties lookup properties)
              (fillProperties lookup' properties) := by
        intro properties within
        induction properties with
        | nil => exact fun _ => .pure []
        | cons entry properties rest =>
            obtain ⟨key, p⟩ := entry
            intro h' continues
            obtain ⟨first, others⟩ := List.forall_mem_cons.mp within
            rw [fillProperties_cons, fillProperties_cons]
            refine (ih key p first (fun h'' more => each h'' (continues.trans more)) true).bind
              fun type h'' more => ?_
            exact (rest others (continues.trans more)).bind fun _ _ _ => .pure _
      cases resolved : t.resolved with
      | true =>
          rw [TypeNode.fillWith_of_resolved _ _ resolved, TypeNode.fillWith_of_resolved _ _ resolved]
          exact .pure t
      | false =>
          rw [TypeNode.fillWith_eq _ _ resolved, TypeNode.fillWith_eq _ _ resolved]
          refine bind ?_ fun base? h' continues =>
            (properties (fun _ => id) continues).bind fun _ _ _ => .pure _
          cases t.base? with
          | none => exact .pure none
          | some name => exact each h (.refl h) name inProperty

/-- A value that both come to without a step. -/
theorem of_ok {a : α} (recorded : after h x = (.ok a, h))
    (other : y.run h.now.types = .ok (a, h.now.types))
    : Follows deep h x y where
  continues := by
    rw [recorded]
    exact .refl h
  same := by
    rw [recorded]
    rintro _ ⟨⟩
    exact other
  ends _ := by rw [recorded]; rfl

/-- An error that both come to without a step. -/
theorem of_error {e : Error} (recorded : after h x = (.error (.failed e), h))
    (other : y.run h.now.types = .error e)
    : Follows deep h x y where
  continues := by
    rw [recorded]
    exact .refl h
  same := by
    rw [recorded]
    rintro _ ⟨⟩
    exact other
  ends _ := by rw [recorded]; rfl

theorem weaken {less : Prop} (follows : Follows less h x y) (enough : deep → less)
    : Follows deep h x y :=
  ⟨follows.continues, follows.same, fun h => follows.ends (enough h)⟩

/-- Only what computations come to matters. -/
theorem congr {x' : Recorded α} {y' : StateT Types (Except Error) α}
    (recorded : after h x = after h x') (other : y.run h.now.types = y'.run h.now.types)
    (follows : Follows deep h x' y')
    : Follows deep h x y := by
  obtain ⟨continues, same, ends⟩ := follows
  exact ⟨by rwa [recorded], fun result ended => by rw [other, same result (recorded ▸ ended)],
    by rwa [recorded]⟩

end Follows

end Raml.Resolver
