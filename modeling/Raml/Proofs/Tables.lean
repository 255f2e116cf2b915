import Raml.Pass
import Raml.Proofs.Guarantee
import Mathlib.Data.List.Forall2

/-! Tables side by side: the same keys in the same order, and under each key related values.
-/

namespace Raml

/-- What is on the left has something beside it. -/
theorem exists_right_of_forall₂ {α β : Type} {R : α → β → Prop} {as : List α} {bs : List β}
    (h : List.Forall₂ R as bs) {a : α} (member : a ∈ as)
    : ∃ b ∈ bs, R a b := by
  induction h with
  | nil => cases member
  | cons first _ ih =>
      rcases List.mem_cons.mp member with rfl | later
      · exact ⟨_, List.mem_cons_self, first⟩
      · obtain ⟨b, later, related⟩ := ih later
        exact ⟨b, List.mem_cons_of_mem _ later, related⟩

/-- What is on the right has something beside it. -/
theorem exists_left_of_forall₂ {α β : Type} {R : α → β → Prop} {as : List α} {bs : List β}
    (h : List.Forall₂ R as bs) {b : β} (member : b ∈ bs)
    : ∃ a ∈ as, R a b :=
  exists_right_of_forall₂ h.flip member

/-- What is known of the items on the left may be used. -/
theorem forall₂_mono_of_mem {α β : Type} {R S : α → β → Prop} {as : List α} {bs : List β}
    (h : List.Forall₂ R as bs) (weaken : ∀ a ∈ as, ∀ b, R a b → S a b)
    : List.Forall₂ S as bs := by
  induction h with
  | nil => exact .nil
  | cons first _ ih =>
      refine .cons (weaken _ List.mem_cons_self _ first) (ih ?_)
      exact fun a later => weaken a (List.mem_cons_of_mem _ later)

/-- Lists side by side are related through a third one, where relations compose. -/
theorem forall₂_trans_of_mem {α β γ : Type} {R : α → β → Prop} {S : β → γ → Prop}
    {T : α → γ → Prop} {as : List α} {bs : List β} {cs : List γ} (h : List.Forall₂ R as bs)
    (h' : List.Forall₂ S bs cs) (composes : ∀ a ∈ as, ∀ b c, R a b → S b c → T a c)
    : List.Forall₂ T as cs := by
  induction h generalizing cs with
  | nil =>
      cases h'
      exact .nil
  | cons first _ ih =>
      cases h' with
      | cons second rest =>
          refine .cons (composes _ List.mem_cons_self _ _ first second) (ih rest ?_)
          exact fun a later => composes a (List.mem_cons_of_mem _ later)

theorem isEmpty_of_forall₂ {α β : Type} {R : α → β → Prop} {as : List α} {bs : List β}
    (h : List.Forall₂ R as bs)
    : bs.isEmpty = as.isEmpty := by
  cases h <;> rfl

theorem isSome_of_rel {α β : Type} {R : α → β → Prop} {a? : Option α} {b? : Option β}
    (h : Option.Rel R a? b?)
    : b?.isSome = a?.isSome := by
  cases h <;> rfl

theorem rel_refl {α : Type} {R : α → α → Prop} (refl : ∀ a, R a a) (a? : Option α)
    : Option.Rel R a? a? := by
  cases a? with
  | none => exact .none
  | some a => exact .some (refl a)

theorem rel_trans {α β γ : Type} {R : α → β → Prop} {S : β → γ → Prop} {T : α → γ → Prop}
    {a? : Option α} {b? : Option β} {c? : Option γ} (h : Option.Rel R a? b?)
    (h' : Option.Rel S b? c?) (composes : ∀ a b c, R a b → S b c → T a c)
    : Option.Rel T a? c? := by
  cases h with
  | none =>
      cases h'
      exact .none
  | some first =>
      cases h' with
      | some second => exact .some (composes _ _ _ first second)

/-- What a computation makes of each item stands beside it. -/
theorem forall₂_of_mapM {α β : Type} {f : α → Except Error β} {as : List α} {bs : List β}
    (h : as.mapM f = .ok bs)
    : List.Forall₂ (fun a b => f a = .ok b) as bs := by
  induction as generalizing bs with
  | nil =>
      cases h
      exact .nil
  | cons a as ih =>
      rw [List.mapM_cons] at h
      obtain ⟨b, first, h⟩ := bind_eq_ok_iff.mp h
      obtain ⟨rest, others, h⟩ := bind_eq_ok_iff.mp h
      cases h
      exact .cons first (ih others)

/-- Values of which none is changed stay as they are. -/
theorem Pass.onValues_idle {α : Type} {f : α → Except Error α} (idle : ∀ a, f a = .ok a)
    (entries : List (String × α))
    : onValues f entries = .ok entries := by
  have each : ∀ entry ∈ entries, (do return (entry.1, ← f entry.2)) = Except.ok (id entry) :=
    fun entry _ => by
      rw [idle]
      rfl
  exact (mapM_eq_map each).trans (congrArg _ (List.map_id entries))

namespace Keyed

variable {α β γ : Type} {R : α → β → Prop} {S : β → γ → Prop} {m : Keyed α} {m' : Keyed β}

/-- Under the same keys, in the same order, stand related values. -/
abbrev Related (R : α → β → Prop) : Keyed α → Keyed β → Prop :=
  List.Forall₂ fun entry entry' => entry.1 = entry'.1 ∧ R entry.2 entry'.2

/-- Keys are the same in the same order. -/
theorem Related.keys (h : Related R m m') : Keyed.keys m' = Keyed.keys m := by
  induction h with
  | nil => rfl
  | cons first _ ih => exact congr (congrArg List.cons first.1.symm) ih

theorem Related.mono {R' : α → β → Prop} (h : Related R m m') (weaken : ∀ a b, R a b → R' a b)
    : Related R' m m' :=
  List.Forall₂.imp (fun _ _ first => ⟨first.1, weaken _ _ first.2⟩) h

/-- What is known of the values on the left may be used. -/
theorem Related.mono_of_mem {R' : α → β → Prop} (h : Related R m m')
    (weaken : ∀ key a b, (key, a) ∈ m → R a b → R' a b)
    : Related R' m m' :=
  forall₂_mono_of_mem h fun entry member _ first =>
    ⟨first.1, weaken entry.1 entry.2 _ member first.2⟩

/-- Tables are related through a third one. -/
theorem Related.trans {m'' : Keyed γ} (h : Related R m m') (h' : Related S m' m'')
    : Related (fun a c => ∃ b, R a b ∧ S b c) m m'' := by
  induction h generalizing m'' with
  | nil =>
      cases h'
      exact .nil
  | cons first _ ih =>
      cases h' with
      | cons second rest =>
          exact .cons ⟨first.1.trans second.1, _, first.2, second.2⟩ (ih rest)

theorem Related.flip (h : Related R m m') : Related (fun b a => R a b) m' m :=
  List.Forall₂.flip (List.Forall₂.imp (fun _ _ first => ⟨first.1.symm, first.2⟩) h)

theorem Related.eq {n n' : Keyed α} (h : Related Eq n n') : n' = n := by
  induction h with
  | nil => rfl
  | cons first _ ih => exact congr (congrArg List.cons (Prod.ext first.1 first.2).symm) ih

/-- Under the key of a value stands what it is related to. -/
theorem Related.forward (h : Related R m m') {key : String} {a : α} (member : (key, a) ∈ m)
    : ∃ b, (key, b) ∈ m' ∧ R a b := by
  obtain ⟨⟨_, b⟩, inside, rfl, related⟩ := exists_right_of_forall₂ h member
  exact ⟨b, inside, related⟩

/-- Under the key of a value stands what is related to it. -/
theorem Related.backward (h : Related R m m') {key : String} {b : β} (member : (key, b) ∈ m')
    : ∃ a, (key, a) ∈ m ∧ R a b := by
  obtain ⟨⟨_, a⟩, inside, rfl, related⟩ := exists_left_of_forall₂ h member
  exact ⟨a, inside, related⟩

/-- What is found under a key in one table is related to what is found in the other. -/
theorem Related.get? (h : Related R m m') (key : String)
    : Option.Rel R (Keyed.get? m key) (Keyed.get? m' key) := by
  induction h with
  | nil => exact .none
  | @cons entry entry' _ _ first _ ih =>
      obtain ⟨name, a⟩ := entry
      obtain ⟨_, b⟩ := entry'
      obtain ⟨rfl, related⟩ := first
      rw [get?_cons, get?_cons]
      split
      · exact .some related
      · exact ih

/-- Setting an entry of the table on the right. -/
theorem Related.insert {R : α → β → Prop} {key : String} {a : α} {b : β} (h : Related R m m')
    (found : Keyed.get? m key = some a) (related : R a b)
    : Related R m (Keyed.insert m' key b) := by
  induction h with
  | nil => cases found
  | @cons entry entry' m m' first rest ih =>
      obtain ⟨name, c⟩ := entry
      obtain ⟨_, c'⟩ := entry'
      obtain ⟨rfl, before⟩ := first
      by_cases same : name = key
      · rw [get?_cons, if_pos same] at found
        cases found
        rw [Keyed.insert, if_pos same]
        exact .cons ⟨rfl, related⟩ rest
      · rw [get?_cons, if_neg same] at found
        rw [Keyed.insert, if_neg same]
        exact .cons ⟨rfl, before⟩ (ih found)

/-- Values that are changed in order come to stand under the same keys. -/
theorem related_of_mapM {f : α → Except Error β}
    (h : m.mapM (fun entry => do return (entry.1, ← f entry.2)) = .ok m')
    : Related (fun a b => f a = .ok b) m m' := by
  refine (forall₂_of_mapM h).imp fun entry entry' changed => ?_
  obtain ⟨b, made, same⟩ := bind_eq_ok_iff.mp changed
  cases same
  exact ⟨rfl, made⟩

/-- Values that are changed are related to those before. -/
theorem related_of_map {f : α → β} (each : ∀ a, R a (f a)) (m : Keyed α)
    : Related R m (m.mapValues f) := by
  induction m with
  | nil => exact .nil
  | cons entry m ih => exact .cons ⟨rfl, each entry.2⟩ ih

end Keyed

-----------------------------------------------------------------------------------------
-- Libraries in use
-----------------------------------------------------------------------------------------

namespace Library

variable {ε : Type}

/-- Changes a library in use that has been loaded. -/
def changeUse (change : Library → Except ε Library) : Use → Except ε Use
  | .external path => .ok (.external path)
  | .loaded used => do return .loaded (← change used)

/-- Changes the libraries in use, which stay under their namespaces. -/
def changeUses (change : String → Library → Except ε Library) (uses : Uses) : Except ε Uses :=
  uses.mapM fun (name, use) => do return (name, ← changeUse (change name) use)

variable {change : String → Library → Except ε Library}

theorem changeUses_external (name path : String) (uses : Uses)
    : changeUses change ((name, .external path) :: uses)
      = changeUses change uses >>= fun rest => .ok ((name, .external path) :: rest) := by
  rw [changeUses, List.mapM_cons]
  rfl

theorem changeUses_loaded (name : String) (used : Library) (uses : Uses)
    : changeUses change ((name, .loaded used) :: uses)
      = change name used >>= fun done =>
          changeUses change uses >>= fun rest => .ok ((name, .loaded done) :: rest) := by
  rw [changeUses, List.mapM_cons]
  simp only [changeUse, bind_assoc]
  rfl

end Library

/-- A pass changes the libraries in use, each as it is seen from within. -/
theorem Pass.onUses_eq (p : Pass) (s : Scope) (uses : Uses)
    : p.onUses s uses
      = Library.changeUses (fun name used => p.onLibrary (s.enter name used) .library used) uses := by
  induction uses with
  | nil => rfl
  | cons entry uses ih =>
      obtain ⟨name, use⟩ := entry
      rw [onUses, ih]
      cases use with
      | external path =>
          rw [Library.changeUses_external]
          rfl
      | loaded used =>
          rw [Library.changeUses_loaded, onUse, bind_assoc]
          rfl

end Raml
