/-! Guarantees: what a computation that may fail does to the state it starts in.

A statement about what a traversal looks up is proved once, for every monad with such a reading, and
then used for look-ups that change a table and for look-ups that only read one.
-/

namespace Raml

variable {σ ε α β : Type}

theorem pure_eq_ok (a : α) : (pure a : Except ε α) = .ok a := rfl

theorem ok_bind (a : α) (f : α → Except ε β) : (Except.ok a >>= f) = f a := rfl

theorem error_bind (e : ε) (f : α → Except ε β) : (Except.error e >>= f) = .error e := rfl

/-- A computation in two steps succeeds if both do. -/
theorem bind_eq_ok_iff {x : Except ε α} {f : α → Except ε β} {b : β}
    : x >>= f = .ok b ↔ ∃ a, x = .ok a ∧ f a = .ok b := by
  cases x with
  | ok a => simp [ok_bind]
  | error e => simp [error_bind]

/-- It fails with the error of the step that fails. -/
theorem bind_eq_error_iff {x : Except ε α} {f : α → Except ε β} {e : ε}
    : x >>= f = .error e ↔ x = .error e ∨ ∃ a, x = .ok a ∧ f a = .error e := by
  cases x with
  | ok a => simp [ok_bind]
  | error e => simp [error_bind]

theorem unit_bind_eq_ok_iff {x : Except ε Unit} {f : Unit → Except ε β} {b : β}
    : x >>= f = .ok b ↔ x = .ok () ∧ f () = .ok b := by
  rw [bind_eq_ok_iff]
  exact ⟨fun ⟨_, first, rest⟩ => ⟨first, rest⟩, fun ⟨first, rest⟩ => ⟨(), first, rest⟩⟩

/-- A result that is changed was there before. -/
theorem map_eq_ok_iff {x : Except ε α} {f : α → β} {b : β}
    : x.map f = .ok b ↔ ∃ a, x = .ok a ∧ f a = b := by
  cases x <;> simp [Except.map]

/-- Changing errors changes no results. -/
theorem mapError_eq_ok_iff {ε' : Type} {x : Except ε α} {g : ε → ε'} {a : α}
    : x.mapError g = .ok a ↔ x = .ok a := by
  cases x <;> constructor <;> rintro ⟨⟩ <;> rfl

/-- What is left of a computation without its errors is its result. -/
theorem ok_of_toOption {x : Except ε α} {a : α} (h : x.toOption = some a) : x = .ok a := by
  cases x with
  | ok b =>
      cases h
      rfl
  | error e => cases h

/-- A list is turned into another one where nothing in it fails. -/
theorem mapM_eq_map {f : α → Except ε β} {g : α → β} {list : List α}
    (each : ∀ a ∈ list, f a = .ok (g a))
    : list.mapM f = .ok (list.map g) := by
  induction list with
  | nil => rfl
  | cons a list ih =>
      obtain ⟨first, rest⟩ := List.forall_mem_cons.mp each
      rw [List.mapM_cons, first, ih rest]
      rfl

/-- A list is gone through where nothing in it stops. -/
theorem forM_eq_ok_iff {f : α → Except ε Unit} {list : List α}
    : list.forM f = .ok () ↔ ∀ a ∈ list, f a = .ok () := by
  induction list with
  | nil => exact iff_of_true rfl nofun
  | cons a list ih =>
      rw [List.forall_mem_cons, ← ih]
      exact unit_bind_eq_ok_iff

/-- Of what stops in a list, the first one does. -/
theorem forM_eq_error_iff {f : α → Except ε Unit} {list : List α} {e : ε}
    : list.forM f = .error e
      ↔ ∃ before a after, list = before ++ a :: after ∧ (∀ b ∈ before, f b = .ok ())
        ∧ f a = .error e := by
  induction list with
  | nil => simp [List.forM_nil, pure_eq_ok]
  | cons first list ih =>
      have step : (first :: list).forM f = f first >>= fun _ => list.forM f := rfl
      rw [step]
      constructor
      · intro failed
        obtain failed | ⟨_, passed, failed⟩ := bind_eq_error_iff.mp failed
        · exact ⟨[], first, list, rfl, nofun, failed⟩
        · obtain ⟨before, a, after, rfl, earlier, failed⟩ := ih.mp failed
          exact ⟨first :: before, a, after, rfl, List.forall_mem_cons.mpr ⟨passed, earlier⟩, failed⟩
      · rintro ⟨before, a, after, split, earlier, failed⟩
        cases before with
        | nil =>
            obtain ⟨rfl, rfl⟩ := List.cons.inj split
            rw [failed]
            rfl
        | cons b before =>
            obtain ⟨rfl, rfl⟩ := List.cons.inj split
            obtain ⟨passed, earlier⟩ := List.forall_mem_cons.mp earlier
            rw [passed]
            exact ih.mpr ⟨before, a, after, rfl, earlier, failed⟩

/-- An error of many checks is the error of one of them. -/
theorem exists_of_forM_eq_error {f : α → Except ε Unit} {list : List α} {e : ε}
    (h : list.forM f = .error e)
    : ∃ a ∈ list, f a = .error e := by
  obtain ⟨before, a, after, rfl, -, failed⟩ := forM_eq_error_iff.mp h
  exact ⟨a, by simp, failed⟩

/-- A reading of computations as state transformers. `ensures s x post` says that `x`, started in
the state `s`, ends in a value and a state that satisfy `post`, or fails in a way that is allowed.
-/
structure Guarantee (m : Type → Type) [Monad m] (σ : Type) where
  ensures {α : Type} (s : σ) (x : m α) (post : α → σ → Prop) : Prop
  pure {α : Type} {s : σ} {a : α} {post : α → σ → Prop} (h : post a s) : ensures s (pure a) post
  bind {α β : Type} {s : σ} {x : m α} {f : α → m β} {post : β → σ → Prop}
    (h : ensures s x fun a s' => ensures s' (f a) post) : ensures s (x >>= f) post
  mono {α : Type} {s : σ} {x : m α} {post post' : α → σ → Prop} (h : ensures s x post)
    (weaken : ∀ a s', post a s' → post' a s') : ensures s x post'

namespace Guarantee

/-- What a computation with a table ends in, where only errors with `allowed` may stop it. -/
def stateful (allowed : ε → Prop) : Guarantee (StateT σ (Except ε)) σ where
  ensures s x post :=
    match x.run s with
    | .ok (a, s') => post a s'
    | .error e => allowed e
  pure h := h
  bind {_ _ s x f post} h := by
    rw [StateT.run_bind]
    cases run : x.run s with
    | ok result =>
        rw [run] at h
        exact h
    | error e =>
        rw [run] at h
        exact h
  mono {_ s x post post'} h weaken := by
    cases run : x.run s with
    | ok result =>
        rw [run] at h
        exact weaken _ _ h
    | error e =>
        rw [run] at h
        exact h

/-- What a computation without a state ends in, where only errors with `allowed` may stop it. -/
def stateless (allowed : ε → Prop) : Guarantee (Except ε) Unit where
  ensures _ x post :=
    match x with
    | .ok a => post a ()
    | .error e => allowed e
  pure h := h
  bind {_ _ _ x f post} h := by
    cases x with
    | ok a => exact h
    | error e => exact h
  mono {_ _ x post post'} h weaken := by
    cases x with
    | ok a => exact weaken _ _ h
    | error e => exact h

theorem stateful_of_ok {allowed : ε → Prop} {s s' : σ} {x : StateT σ (Except ε) α} {a : α}
    {post : α → σ → Prop} (run : x.run s = .ok (a, s')) (h : post a s')
    : (stateful allowed).ensures s x post := by
  simp only [stateful, run]
  exact h

theorem stateful_of_error {allowed : ε → Prop} {s : σ} {x : StateT σ (Except ε) α} {e : ε}
    {post : α → σ → Prop} (run : x.run s = .error e) (h : allowed e)
    : (stateful allowed).ensures s x post := by
  simp only [stateful, run]
  exact h

/-- A guarantee is about what a computation does in the state that it starts in. -/
theorem stateful_congr {allowed : ε → Prop} {s : σ} {x y : StateT σ (Except ε) α}
    {post : α → σ → Prop} (same : x.run s = y.run s) (h : (stateful allowed).ensures s y post)
    : (stateful allowed).ensures s x post := by
  simp only [stateful] at h ⊢
  rwa [same]

theorem stateful_ok {allowed : ε → Prop} {s s' : σ} {x : StateT σ (Except ε) α} {a : α}
    {post : α → σ → Prop}
    (h : (stateful allowed).ensures s x post) (ok : x.run s = .ok (a, s'))
    : post a s' := by
  simp only [stateful, ok] at h
  exact h

theorem stateful_error {allowed : ε → Prop} {s : σ} {x : StateT σ (Except ε) α} {e : ε}
    {post : α → σ → Prop}
    (h : (stateful allowed).ensures s x post) (error : x.run s = .error e)
    : allowed e := by
  simp only [stateful, error] at h
  exact h

end Guarantee

end Raml
