import Raml.Keyed

/-! Depth-first traversal of names that refer to one another.

A name is completed behind the names that it refers to, unless these are under way themselves. What
is recorded of each name is its trail: the names under way when it was reached, outermost first.
-/

namespace Raml.Traversal

/-- Names in order of completion, each with its trail. -/
abbrev Completed := Keyed (List String)

variable {next : String → List String}

/-- Completes a name and what it refers to. The names in `free` are those that may be entered, those
in `chain` are under way. -/
def visit (next : String → List String) (free chain : List String) (completed : Completed)
    (name : String) : Completed :=
  if name ∈ chain ∨ name ∈ completed.keys then completed
  else if _h : name ∈ free then
    (next name).foldl (visit next (free.erase name) (chain ++ [name])) completed ++ [(name, chain)]
  else completed
termination_by free.length
decreasing_by
  have := List.length_erase_of_mem _h
  have := List.length_pos_of_mem _h
  omega

/-- Completes all names in order. -/
def completions (next : String → List String) (names : List String) : Completed :=
  names.foldl (visit next names []) []

/-- A name that is under way or completed is not entered. -/
theorem visit_of_settled {free chain : List String} {completed : Completed} {name : String}
    (h : name ∈ chain ∨ name ∈ completed.keys)
    : visit next free chain completed name = completed := by
  rw [visit, if_pos h]

/-- Neither is one that may not be entered. -/
theorem visit_of_not_free {free chain : List String} {completed : Completed} {name : String}
    (h : name ∉ free)
    : visit next free chain completed name = completed := by
  rw [visit, dif_neg h, ite_self]

/-- Any other name is completed behind those that it refers to. -/
theorem visit_of_free {free chain : List String} {completed : Completed} {name : String}
    (outside : name ∉ chain) (new : name ∉ completed.keys) (h : name ∈ free)
    : visit next free chain completed name
      = (next name).foldl (visit next (free.erase name) (chain ++ [name])) completed
        ++ [(name, chain)] := by
  rw [visit, if_neg (not_or.mpr ⟨outside, new⟩), dif_pos h]

/-- A visit does nothing, or it enters the name. -/
theorem visit_cases (free chain : List String) (completed : Completed) (name : String)
    : visit next free chain completed name = completed
      ∨ name ∉ chain ∧ name ∉ completed.keys ∧ name ∈ free
        ∧ visit next free chain completed name
          = (next name).foldl (visit next (free.erase name) (chain ++ [name])) completed
            ++ [(name, chain)] := by
  by_cases settled : name ∈ chain ∨ name ∈ completed.keys
  · exact Or.inl (visit_of_settled settled)
  · obtain ⟨outside, new⟩ := not_or.mp settled
    by_cases free : name ∈ free
    · exact Or.inr ⟨outside, new, free, visit_of_free outside new free⟩
    · exact Or.inl (visit_of_not_free free)

/-- What each visit keeps is kept by visits in turn. -/
theorem foldl_preserves {Q : Completed → Prop} {step : Completed → String → Completed}
    (keep : ∀ completed name, Q completed → Q (step completed name)) {completed : Completed}
    (names : List String) (start : Q completed)
    : Q (names.foldl step completed) := by
  induction names generalizing completed with
  | nil => exact start
  | cons name names ih => exact ih (keep completed name start)

/-- A visit keeps what entering and leaving a name keep. -/
theorem visit_preserves {Q : List String → Completed → Prop}
    (enter : ∀ chain completed name, Q chain completed → name ∉ chain
      → Q (chain ++ [name]) completed)
    (leave : ∀ chain completed later name, Q chain completed → name ∉ chain
      → Q (chain ++ [name]) later → Q chain (later ++ [(name, chain)]))
    (free : List String) {chain : List String} {completed : Completed} (name : String)
    (start : Q chain completed)
    : Q chain (visit next free chain completed name) := by
  induction size : free.length using Nat.strongRecOn generalizing free chain completed name with
  | ind n ih =>
      rcases @visit_cases next free chain completed name with
        same | ⟨outside, new, entered, step⟩
      · rw [same]
        exact start
      · rw [step]
        have smaller : (free.erase name).length < n := by
          have := List.length_erase_of_mem entered
          have := List.length_pos_of_mem entered
          omega
        refine leave chain completed _ name start outside ?_
        exact foldl_preserves (fun _ other kept => ih _ smaller _ other kept rfl) _
          (enter chain completed name start outside)

/-- A visit adds to what is completed. -/
theorem visit_extends (free chain : List String) (completed : Completed) (name : String)
    : completed <+: visit next free chain completed name :=
  visit_preserves (Q := fun _ later => completed <+: later) (fun _ _ _ more _ => more)
    (fun _ _ _ _ _ _ more => more.trans (List.prefix_append _ _)) free name
    (List.prefix_refl _)

theorem foldl_visit_extends (free chain : List String) (completed : Completed)
    (names : List String)
    : completed <+: names.foldl (visit next free chain) completed :=
  foldl_preserves (Q := fun later => completed <+: later)
    (fun _ name more => more.trans (visit_extends free chain _ name)) names
    (List.prefix_refl _)

/-- What is completed stays completed. -/
theorem mem_keys_of_prefix {completed later : Completed} (more : completed <+: later)
    {name : String} (h : name ∈ completed.keys)
    : name ∈ later.keys :=
  (more.map Prod.fst).subset h

/-- A name that may be entered is completed by its visit. -/
theorem mem_keys_visit {free : List String} (completed : Completed) {name : String}
    (h : name ∈ free)
    : name ∈ Keyed.keys (visit next free [] completed name) := by
  by_cases new : name ∈ completed.keys
  · exact mem_keys_of_prefix (visit_extends free [] completed name) new
  · rw [visit_of_free List.not_mem_nil new h]
    simp [Keyed.keys]

/-- Visits in turn complete all of their names. -/
theorem mem_keys_foldl_visit {free : List String} (completed : Completed) {names : List String}
    (within : ∀ name ∈ names, name ∈ free)
    : ∀ name ∈ names, name ∈ Keyed.keys (names.foldl (visit next free []) completed) := by
  induction names generalizing completed with
  | nil => simp
  | cons first names ih =>
      intro name member
      rcases List.mem_cons.mp member with rfl | later
      · exact mem_keys_of_prefix (foldl_visit_extends free [] _ names)
          (mem_keys_visit completed (within name member))
      · exact ih _ (fun name member => within name (List.mem_cons_of_mem _ member)) name later

/-- `completed` is `start` and more, the more being names outside `chain` that were reached with all
of it under way. -/
def Below (chain : List String) (start completed : Completed) : Prop :=
  ∀ name trail, (name, trail) ∈ completed
    → (name, trail) ∈ start ∨ (chain <+: trail ∧ name ∉ chain)

/-- What a visit adds was reached with the chain under way. -/
theorem visit_below {free chain : List String} {start completed : Completed}
    (h : Below chain start completed) (name : String)
    : Below chain start (visit next free chain completed name) := by
  refine (visit_preserves (Q := fun under later => chain <+: under ∧ Below chain start later)
    ?_ ?_ free name ⟨List.prefix_refl _, h⟩).2
  · rintro under later other ⟨inside, below⟩ -
    exact ⟨inside.trans (List.prefix_append _ _), below⟩
  · rintro under earlier later other ⟨inside, -⟩ outside ⟨-, below⟩
    refine ⟨inside, fun n trail member => ?_⟩
    rcases List.mem_append.mp member with member | last
    · exact below n trail member
    · cases List.mem_singleton.mp last
      exact Or.inr ⟨inside, fun within => outside (inside.subset within)⟩

/-- The same of visits in turn. -/
theorem foldl_visit_below {free chain : List String} {start completed : Completed}
    (h : Below chain start completed) (names : List String)
    : Below chain start (names.foldl (visit next free chain) completed) :=
  foldl_preserves (Q := Below chain start) (fun _ name below => visit_below below name) names h

/-- Names under way are not completed by visits of others. -/
theorem foldl_visit_outside {free chain : List String} {completed : Completed} {name : String}
    (under : name ∈ chain) (new : name ∉ completed.keys) (names : List String)
    : name ∉ Keyed.keys (names.foldl (visit next free chain) completed) := by
  intro member
  obtain ⟨⟨name, trail⟩, entry, rfl⟩ := List.mem_map.mp member
  have below : Below chain completed completed := fun _ _ => Or.inl
  rcases foldl_visit_below below names name trail entry with old | ⟨-, outside⟩
  · exact new (List.mem_map.mpr ⟨_, old, rfl⟩)
  · exact outside under

/-- What a trail holds is under way or completed. -/
def TrailsSettled (chain : List String) (completed : Completed) : Prop :=
  ∀ name trail, (name, trail) ∈ completed → ∀ other ∈ trail, other ∈ chain ∨ other ∈ completed.keys

/-- A visit leaves nothing on a trail that is neither under way nor completed. -/
theorem visit_trailsSettled {free chain : List String} {completed : Completed}
    (h : TrailsSettled chain completed) (name : String)
    : TrailsSettled chain (visit next free chain completed name) := by
  refine visit_preserves (Q := TrailsSettled) ?_ ?_ free name h
  · intro chain completed name settled _ n trail member other inside
    exact (settled n trail member other inside).imp_left (List.mem_append_left _)
  · intro chain earlier later name _ _ settled n trail member other inside
    rcases List.mem_append.mp member with member | last
    · rcases settled n trail member other inside with under | done
      · rcases List.mem_append.mp under with under | same
        · exact Or.inl under
        · exact Or.inr (by simp [Keyed.keys, List.mem_singleton.mp same])
      · exact Or.inr (by simpa [Keyed.keys] using Or.inl (List.mem_map.mp done))
    · cases List.mem_singleton.mp last
      exact Or.inl inside

/-- The first name is completed behind what it leads to, with nothing but itself under way. -/
theorem completions_of_first (next : String → List String) (first : String) (names : List String)
    : ∃ below, Below [first] [] below ∧ TrailsSettled [] (below ++ [(first, [])])
        ∧ below ++ [(first, [])] <+: completions next (first :: names) := by
  let below := (next first).foldl (visit next ((first :: names).erase first) [first]) []
  have step : visit next (first :: names) [] [] first = below ++ [(first, [])] :=
    visit_of_free List.not_mem_nil (by simp [Keyed.keys]) List.mem_cons_self
  refine ⟨below, foldl_visit_below (fun _ _ member => Or.inl member) _, ?_, ?_⟩
  · rw [← step]
    refine visit_trailsSettled ?_ first
    intro _ _ member
    cases member
  · rw [← step]
    exact foldl_visit_extends _ _ _ names

end Raml.Traversal
