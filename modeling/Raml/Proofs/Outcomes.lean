import Raml.Proofs.Guarantee

/-! What computations that may fail come to.

`Yields` says what is known of a result, if there is one. `Alike` says that two computations have
one outcome, and what is known of it. With one computation on both sides this is a statement about
its results and its errors. With two of them it says what does not show in the outcome, such as
files that are not read.
-/

namespace Raml

-----------------------------------------------------------------------------------------
-- One result
-----------------------------------------------------------------------------------------

/-- Whatever a computation results in satisfies `P`. -/
def Yields {ε α : Type} (x : Except ε α) (P : α → Prop) : Prop := ∀ a, x = .ok a → P a

namespace Yields

variable {ε α β : Type} {P : α → Prop} {Q : β → Prop} {x : Except ε α} {f : α → Except ε β}

theorem ok {a : α} (h : P a) : Yields (.ok a : Except ε α) P := by
  rintro _ ⟨⟩
  exact h

theorem error (e : ε) : Yields (.error e) P := by
  rintro _ ⟨⟩

/-- Less may be said of a result. -/
theorem mono {P' : α → Prop} (h : Yields x P) (weaken : ∀ a, P a → P' a) : Yields x P' :=
  fun a result => weaken a (h a result)

/-- What is known of the first result is enough for the second one. -/
theorem bind (h : Yields x P) (step : ∀ a, P a → Yields (f a) Q) : Yields (x >>= f) Q := by
  cases x with
  | ok a => exact step a (h a rfl)
  | error e => exact error e

/-- What comes first is known by its result. -/
theorem keep (step : ∀ a, x = .ok a → Yields (f a) Q) : Yields (x >>= f) Q :=
  bind (P := fun a => x = .ok a) (fun _ => id) step

/-- What comes first may yield anything. -/
theorem skip (step : ∀ a, Yields (f a) Q) : Yields (x >>= f) Q :=
  bind (P := fun _ => True) (fun _ _ => trivial) fun a _ => step a

theorem map {g : α → β} (h : Yields x fun a => Q (g a)) : Yields (x.map g) Q := by
  cases x with
  | ok a => exact ok (h a rfl)
  | error e => exact error e

/-- What is put under a key stands there. -/
theorem keyed {κ : Type} (h : Yields x P) (key : κ)
    : Yields (do return (key, ← x)) fun entry : κ × α => entry.1 = key ∧ P entry.2 :=
  bind h fun _ holds => ok ⟨rfl, holds⟩

theorem mapError {ε' : Type} {g : ε → ε'} (h : Yields x P) : Yields (x.mapError g) P := by
  cases x with
  | ok a => exact ok (h a rfl)
  | error e => exact error (g e)

/-- What is known of each result is known of all. -/
theorem mapM {list : List α} (each : ∀ a ∈ list, Yields (f a) Q)
    : Yields (list.mapM f) fun results => ∀ b ∈ results, Q b := by
  induction list with
  | nil => exact ok (by simp)
  | cons a list ih =>
      rw [List.mapM_cons]
      refine bind (each a List.mem_cons_self) fun b first => ?_
      refine bind (ih fun a later => each a (List.mem_cons_of_mem _ later)) fun rest all => ?_
      exact ok (List.forall_mem_cons.mpr ⟨first, all⟩)

/-- What holds at the start holds at the end if each step keeps it. -/
theorem foldlM {f : β → α → Except ε β} {list : List α} {b : β} (start : Q b)
    (step : ∀ b a, Q b → Yields (f b a) Q)
    : Yields (list.foldlM f b) Q := by
  induction list generalizing b with
  | nil => exact ok start
  | cons a list ih =>
      rw [List.foldlM_cons]
      exact bind (step b a start) fun b' next => ih next

end Yields

-----------------------------------------------------------------------------------------
-- One outcome of two
-----------------------------------------------------------------------------------------

variable {ε α β : Type}

/-- Both computations have the same outcome: a result with `post`, or an error that is allowed. -/
structure Alike (allowed : ε → Prop) (x y : Except ε α) (post : α → Prop) : Prop where
  same : x = y
  result : ∀ a, x = .ok a → post a
  error : ∀ e, x = .error e → allowed e

namespace Alike

variable {allowed : ε → Prop} {x y : Except ε α} {f g : α → Except ε β} {P P' : α → Prop}
variable {Q : β → Prop}

theorem ok {a : α} (h : P a) : Alike allowed (.ok a) (.ok a) P where
  same := rfl
  result := by
    rintro _ ⟨⟩
    exact h
  error := nofun

theorem fail {e : ε} (h : allowed e) : Alike allowed (.error e : Except ε α) (.error e) P where
  same := rfl
  result := nofun
  error := by
    rintro _ ⟨⟩
    exact h

/-- Both go on alike from whatever they come to. -/
theorem bind (h : Alike allowed x y P) (step : ∀ a, P a → Alike allowed (f a) (g a) Q)
    : Alike allowed (x >>= f) (y >>= g) Q := by
  obtain ⟨rfl, result, error⟩ := h
  cases x with
  | ok a => exact step a (result a rfl)
  | error e => exact fail (error e rfl)

/-- Less may be said of the result of both. -/
theorem mono (h : Alike allowed x y P) (weaken : ∀ a, P a → P' a) : Alike allowed x y P' :=
  ⟨h.same, fun a ok => weaken a (h.result a ok), h.error⟩

theorem map {k : α → β} (h : Alike allowed x y fun a => Q (k a))
    : Alike allowed (x.map k) (y.map k) Q := by
  obtain ⟨rfl, result, error⟩ := h
  cases x with
  | ok a => exact ok (result a rfl)
  | error e => exact fail (error e rfl)

/-- A result is what the computation ends in. -/
theorem known (h : Alike allowed x y P) : Alike allowed x y fun a => x = .ok a :=
  ⟨h.same, fun _ ok => ok, h.error⟩

/-- Of a result it is also known that the computation ends in it. -/
theorem with_ok (h : Alike allowed x y P) : Alike allowed x y fun a => x = .ok a ∧ P a :=
  ⟨h.same, fun a ok => ⟨ok, h.result a ok⟩, h.error⟩

/-- What is known of every result, where nothing is said of errors. -/
theorem of_ok (h : ∀ a, x = .ok a → P a) : Alike (fun _ => True) x x P :=
  ⟨rfl, h, fun _ _ => trivial⟩

/-- What is allowed for one reason is allowed for another. -/
theorem allow {allowed' : ε → Prop} (h : Alike allowed x y P) (more : ∀ e, allowed e → allowed' e)
    : Alike allowed' x y P :=
  ⟨h.same, h.result, fun e failed => more e (h.error e failed)⟩

/-- Lists that are transformed item by item, and for each item what is known of it. -/
theorem mapM {list : List α} (each : ∀ a ∈ list, Alike allowed (f a) (g a) Q)
    : Alike allowed (list.mapM f) (list.mapM g) fun results => ∀ b ∈ results, Q b := by
  induction list with
  | nil => exact ok (by simp)
  | cons a list ih =>
      rw [List.mapM_cons, List.mapM_cons]
      refine bind (each a List.mem_cons_self) fun b first => ?_
      refine bind (ih fun a later => each a (List.mem_cons_of_mem _ later)) fun rest all => ?_
      exact ok (List.forall_mem_cons.mpr ⟨first, all⟩)

end Alike

end Raml
