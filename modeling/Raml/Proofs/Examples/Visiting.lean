import Raml.Proofs.Documents.Resolved
import Raml.Proofs.Examples.Scopes

/-! The derivation of a value with a stack of the bases that one is being derived from.

A base is put on the stack before its own value is derived and taken off afterwards, and while it is
there it is no base. Nothing else ends the recursion: bases are types of any size. It ends all the
same, for whatever types are declared, and leaves the stack as it was: from some depth on there is an
outcome, and at no depth is there another one.
-/

namespace Raml

-----------------------------------------------------------------------------------------
-- Tables
-----------------------------------------------------------------------------------------

/-- Types that are found by their names, of which there are finitely many. -/
structure TypeTable where
  find : String → Option TypeNode
  names : List String
  complete {name : String} {t : TypeNode} (h : find name = some t) : name ∈ names

namespace TypeTable

/-- The types of one table, as they are declared. -/
def ofTypes (types : Types) : TypeTable where
  find := Keyed.get? types
  names := Keyed.keys types
  complete h := Keyed.get?_isSome_iff.mp (Option.isSome_of_mem h)

/-- The types that a library sees, those of other libraries under their full names. -/
def ofLibrary (l : Library) : TypeTable where
  find := l.getType?
  names := l.typeNames
  complete := Library.mem_typeNames_of_getType?

/-- The names that are not on a stack. -/
def left (table : TypeTable) (stack : List String) : List String :=
  table.names.filter fun name => !stack.contains name

/-- A name on the stack is taken out of those that are left. -/
theorem left_push (table : TypeTable) (stack : List String) (name : String)
    : table.left (stack ++ [name]) = Derivation.without (table.left stack) name := by
  rw [left, left, Derivation.without, List.filter_filter]
  refine List.filter_congr fun other _ => ?_
  by_cases same : other = name <;> simp [same]

/-- A name is known as long as it is not on the stack. -/
theorem known_left (table : TypeTable) (stack : List String) (name : String)
    : Derivation.known table.find (table.left stack) name
      = if stack.contains name then none else table.find name := by
  unfold Derivation.known left
  cases found : table.find name with
  | none => simp
  | some t => simp [table.complete found]

end TypeTable

namespace Derivation

-----------------------------------------------------------------------------------------
-- The recursion
-----------------------------------------------------------------------------------------

/-- What a derivation leaves when it ends: a value, if there is one, or an error, and the stack. -/
abbrev Outcome := Except Error (Option Value) × List String

/-- The declared types that are not on a stack. No values are kept of them. -/
def offStack (find : String → Option TypeNode) (stack : List String) : Bases where
  declared name := if stack.contains name then none else find name
  derived _ := .ok none

section

variable (inner : TypeNode → List String → Option Outcome) (load : Include)
  (find : String → Option TypeNode)

/-- An array comes back to its own type, which has then lost its mark and its examples. -/
def visitArray (t : TypeNode) (stack : List String) : Option Outcome :=
  match collected load (offStack find stack) t with
  | .error e => some (.error e, stack)
  | .ok (some v) => some (.ok (some v), stack)
  | .ok none => do
      let (item, stack) ← inner (itemType t) stack
      return (item.map (Option.map fun v => .array [v]), stack)

/-- The base is on the stack for as long as its value is derived, whether that fails or not. -/
def visitBase (t : TypeNode) (stack : List String) : Option Outcome :=
  match (offStack find stack).of? t with
  | none => some (.ok none, stack)
  | some base => do
      let (derived, stack) ← inner base (stack ++ [t.baseName])
      return (derived.map (Option.filter (fits t)), stack.dropLast)

/-- Adds members to those of an object, one for each property that derives a value. -/
def visitMembers (done : List (String × Value)) (stack : List String)
    : Properties → Option Outcome
  | [] => some (.ok (some (.object done)), stack)
  | (key, p) :: properties => do
      match ← inner p.type stack with
      | (.ok (some v), stack) => visitMembers (done ++ [(key, v)]) stack properties
      | (.ok none, stack) =>
          if p.required then return (.ok none, stack)
          else visitMembers done stack properties
      | failed => return failed

def visitObject (t : TypeNode) (stack : List String) : Option Outcome :=
  if t.properties.isEmpty then some (.ok none, stack)
  else visitMembers inner [] stack t.properties

/-- Derives the value of a type by way of the values of others. -/
def visitWith (t : TypeNode) (stack : List String) : Option Outcome :=
  match firstValue load t.kind t.allExamples with
  | .error e => some (.error e, stack)
  | .ok (some v) => some (.ok (some v), stack)
  | .ok none =>
      if t.isArray then visitArray inner load find t stack
      else do
        match ← visitBase inner find t stack with
        | (.ok none, stack) => visitObject inner t stack
        | outcome => return outcome

end

/-- Derives the value of a type. There is no outcome where that takes more than `depth` derivations
inside each other. -/
def visit (load : Include) (find : String → Option TypeNode)
    : (depth : Nat) → TypeNode → List String → Option Outcome
  | 0 => fun _ _ => none
  | depth + 1 => visitWith (visit load find depth) load find

/-- Gives a type without examples the value that it derives. The type is changed in place: it is
there whether that fails or not. -/
def visitFill (load : Include) (find : String → Option TypeNode) (depth : Nat) (t : TypeNode)
    (stack : List String) : Option (Except Error Bool × TypeNode × List String) :=
  if t.hasExamples then some (.ok false, t, stack)
  else do
    match ← visit load find depth t stack with
    | (.error e, stack) => return (.error e, t, stack)
    | (.ok none, stack) => return (.ok false, t, stack)
    | (.ok (some v), stack) =>
        let examples := Keyed.insert t.declaration.examples derivedName (.ofValue v)
        return (.ok true, t.withExamples (some (.ofValue v)) examples, stack)

-----------------------------------------------------------------------------------------
-- Its outcome
-----------------------------------------------------------------------------------------

variable {load : Include} {table : TypeTable} {t : TypeNode} {stack : List String}

/-- The bases that a derivation knows of, with some names on the stack. -/
abbrev basesLeft (load : Include) (table : TypeTable) (stack : List String) : Bases :=
  basesAmong load table.find (table.left stack)

/-- The base of a type is the same by the stack as by the names that are left. -/
theorem of?_offStack (load : Include) (table : TypeTable) (stack : List String) (t : TypeNode)
    : (offStack table.find stack).of? t = (basesLeft load table stack).of? t := by
  rw [of?_among, table.known_left]
  rfl

/-- What the examples of a base make together is the same by the stack as by the names that are
left. -/
theorem collected_offStack (load : Include) (table : TypeTable) (stack : List String) (t : TypeNode)
    : collected load (offStack table.find stack) t
      = collected load (basesLeft load table stack) t := by
  rw [collected, collected, of?_offStack load]

/-- A derivation of a type ends with the value that the type has from the bases that are left, and
with the stack that it began with. -/
def Ends (derivation : TypeNode → List String → Option Outcome) (load : Include)
    (table : TypeTable) (t : TypeNode) (stack : List String) : Prop :=
  derivation t stack = some (derive load table.find (table.left stack) t, stack)

section

variable {inner : TypeNode → List String → Option Outcome}

/-- The members behind those that there are. -/
theorem visitMembers_eq {properties : Properties} (done : List (String × Value))
    (each : ∀ entry ∈ properties, Ends inner load table entry.2.type stack)
    : visitMembers inner done stack properties
      = some ((members load (basesLeft load table stack) properties).map
          (Option.map fun ms => .object (done ++ ms)), stack) := by
  induction properties generalizing done with
  | nil => simp [visitMembers, members, Except.map, pure_eq_ok]
  | cons entry properties ih =>
      obtain ⟨first, rest⟩ := List.forall_mem_cons.mp each
      obtain ⟨key, p⟩ := entry
      have later (done : List (String × Value)) := ih done rest
      have first : inner p.type stack
          = some (value load (basesLeft load table stack) p.type, stack) :=
        first.trans (by rw [derive_eq])
      rw [visitMembers, members_cons, first]
      cases value load (basesLeft load table stack) p.type with
      | error e => rfl
      | ok v? =>
          cases v? with
          | none =>
              cases required : p.required with
              | true => rfl
              | false => exact later done
          | some v =>
              refine (later (done ++ [(key, v)])).trans ?_
              cases members load (basesLeft load table stack) properties with
              | error e => rfl
              | ok ms? => cases ms? <;> simp [Except.map, ok_bind]

/-- An object is made of what the derivations for its properties end with. -/
theorem visitObject_eq (each : ∀ entry ∈ t.properties, Ends inner load table entry.2.type stack)
    : visitObject inner t stack = some (object load (basesLeft load table stack) t, stack) := by
  rw [visitObject, object]
  cases t.properties.isEmpty with
  | true => rfl
  | false =>
      rw [if_neg Bool.false_ne_true, if_neg Bool.false_ne_true, visitMembers_eq [] each]
      cases members load (basesLeft load table stack) t.properties <;> rfl

/-- The name of the base is taken off the stack by whom it was put there. -/
theorem visitBase_eq
    (base : ∀ base ∈ known table.find (table.left stack) t.baseName,
      Ends inner load table base (stack ++ [t.baseName]))
    : visitBase inner table.find t stack
      = some (fromBase (basesLeft load table stack) t, stack) := by
  rw [visitBase, fromBase, of?_offStack load]
  cases found : (basesLeft load table stack).of? t with
  | none => rfl
  | some b =>
      have known : known table.find (table.left stack) t.baseName = some b := by
        rw [of?_among] at found
        exact (Option.ite_none_right_eq_some.mp found).2
      have visited : inner b (stack ++ [t.baseName]) = _ := base b known
      simp only [visited, derived_among known, table.left_push, Option.bind_eq_bind,
        Option.bind_some, List.dropLast_concat, pure]
      cases derive load table.find (without (table.left stack) t.baseName) b <;> rfl

/-- A single type ends if its base does, with itself on the stack, and if its properties do. -/
theorem ends_of_single (single : t.isArray = false)
    (base : ∀ base ∈ known table.find (table.left stack) t.baseName,
      Ends inner load table base (stack ++ [t.baseName]))
    (each : ∀ entry ∈ t.properties, Ends inner load table entry.2.type stack)
    : Ends (visitWith inner load table.find) load table t stack := by
  rw [Ends, visitWith, derive_eq, value_eq]
  cases firstValue load t.kind t.allExamples with
  | error e => rfl
  | ok v? =>
      cases v? with
      | some v => rfl
      | none =>
          simp only [single, visitBase_eq base, ok_bind, fallback, plain, Bool.false_eq_true,
            if_false, Option.bind_eq_bind, Option.bind_some]
          cases fromBase (basesLeft load table stack) t with
          | error e => rfl
          | ok v? =>
              cases v? with
              | some v => rfl
              | none => exact visitObject_eq each

/-- What is derived for an array whose examples do not fit it is a list of one item. -/
theorem ends_of_array (array : t.isArray = true)
    (item : Ends inner load table (itemType t) stack)
    : Ends (visitWith inner load table.find) load table t stack := by
  have single : derive load table.find (table.left stack) (itemType t)
      = plain (basesLeft load table stack) (itemType t)
          fun _ => object load (basesLeft load table stack) t := by
    have unset : firstValue load (itemType t).kind (itemType t).allExamples = .ok none := rfl
    rw [derive_eq, value_eq, unset]
    rfl
  rw [Ends, visitWith, derive_eq, value_eq]
  cases firstValue load t.kind t.allExamples with
  | error e => rfl
  | ok v? =>
      cases v? with
      | some v => rfl
      | none =>
          simp only [array, visitArray, collected_offStack load, ok_bind, fallback, if_true]
          cases collected load (basesLeft load table stack) t with
          | error e => rfl
          | ok v? =>
              cases v? with
              | some v => rfl
              | none =>
                  simp only [show inner (itemType t) stack = _ from item, single, listed, ok_bind,
                    Option.bind_eq_bind, Option.bind_some]
                  cases plain (basesLeft load table stack) (itemType t) _ <;> rfl

end

-----------------------------------------------------------------------------------------
-- Its end
-----------------------------------------------------------------------------------------

/-- From some depth on, the derivation of a type ends. -/
def Finishes (load : Include) (table : TypeTable) (t : TypeNode) (stack : List String) : Prop :=
  ∃ enough, ∀ depth, enough ≤ depth → Ends (visit load table.find depth) load table t stack

/-- What is enough for each of finitely many types is enough for all. -/
theorem exists_enough {α : Type} {done : Nat → α → Prop} (list : List α)
    (each : ∀ a ∈ list, ∃ enough, ∀ depth, enough ≤ depth → done depth a)
    : ∃ enough, ∀ depth, enough ≤ depth → ∀ a ∈ list, done depth a := by
  induction list with
  | nil => exact ⟨0, fun _ _ _ member => nomatch member⟩
  | cons a list ih =>
      obtain ⟨first, rest⟩ := List.forall_mem_cons.mp each
      obtain ⟨n, first⟩ := first
      obtain ⟨m, rest⟩ := ih rest
      refine ⟨max n m, fun depth deep => List.forall_mem_cons.mpr ⟨first depth ?_, rest depth ?_⟩⟩
      · exact (Nat.le_max_left n m).trans deep
      · exact (Nat.le_max_right n m).trans deep

/-- Some depth is enough for the base and for all properties. -/
theorem Finishes.of_single (single : t.isArray = false)
    (base : ∀ base ∈ known table.find (table.left stack) t.baseName,
      Finishes load table base (stack ++ [t.baseName]))
    (each : ∀ entry ∈ t.properties, Finishes load table entry.2.type stack)
    : Finishes load table t stack := by
  obtain ⟨n, each⟩ := exists_enough t.properties each
  obtain ⟨m, base⟩ := exists_enough (known table.find (table.left stack) t.baseName).toList
    fun b member => base b (Option.mem_toList.mp member)
  refine ⟨max n m + 1, fun depth deep => ?_⟩
  obtain ⟨depth, rfl⟩ := Nat.exists_eq_add_one_of_ne_zero (show depth ≠ 0 by omega)
  refine ends_of_single single (fun b found => ?_) (each depth (by omega))
  exact base depth (by omega) b (Option.mem_toList.mpr found)

/-- One depth more is enough for a list than for its items. -/
theorem Finishes.of_array (array : t.isArray = true)
    (item : Finishes load table (itemType t) stack)
    : Finishes load table t stack := by
  obtain ⟨n, item⟩ := item
  refine ⟨n + 1, fun depth deep => ?_⟩
  obtain ⟨depth, rfl⟩ := Nat.exists_eq_add_one_of_ne_zero (show depth ≠ 0 by omega)
  exact ends_of_array array (item depth (by omega))

/-- By induction on the names that are left, the properties inside a type and the mark of arrays: a
base is visited with one name less, whatever its size, and an item is a type that is no array. -/
theorem finishes (load : Include) (table : TypeTable) (t : TypeNode) (stack : List String)
    : Finishes load table t stack := by
  induction fewer : (table.left stack).length using Nat.strongRecOn generalizing t stack with
  | ind n shortened =>
      subst fewer
      have base (name : String) (b : TypeNode)
          (found : known table.find (table.left stack) name = some b)
          : Finishes load table b (stack ++ [name]) := by
        refine shortened _ ?_ b (stack ++ [name]) rfl
        rw [table.left_push]
        exact length_without_lt (known_eq_some.mp found).1
      induction t using TypeNode.induct with
      | step t ih =>
          have each : ∀ entry ∈ t.properties, Finishes load table entry.2.type stack :=
            fun entry member => ih entry.1 entry.2 member
          cases array : t.isArray with
          | false => exact .of_single array (base t.baseName) each
          | true => exact .of_array array (.of_single rfl (base t.baseName) each)

/-- A base that is an array of itself, with a property of its own type. -/
def knot : TypeNode :=
  (TypeNode.ofName "Knot[]").withProperties [("next", .ofName "next" "Knot")]

example (load : Include)
    : visit load (TypeTable.ofTypes [("Knot", knot)]).find 6 knot [] = some (.ok none, []) := by
  rfl

-----------------------------------------------------------------------------------------
-- Its only outcome
-----------------------------------------------------------------------------------------

/-- One derivation has the outcomes of another one, and perhaps more. -/
def Extends (more inner : TypeNode → List String → Option Outcome) : Prop :=
  ∀ {t stack outcome}, inner t stack = some outcome → more t stack = some outcome

section

variable {more inner : TypeNode → List String → Option Outcome}
  {find : String → Option TypeNode} {outcome : Outcome}

theorem visitArray_mono (extended : Extends more inner)
    (h : visitArray inner load find t stack = some outcome)
    : visitArray more load find t stack = some outcome := by
  rw [visitArray] at h ⊢
  split at h
  · exact h
  · exact h
  · obtain ⟨_, visited, rest⟩ := Option.bind_eq_some_iff.mp h
    exact Option.bind_eq_some_iff.mpr ⟨_, extended visited, rest⟩

theorem visitBase_mono (extended : Extends more inner)
    (h : visitBase inner find t stack = some outcome)
    : visitBase more find t stack = some outcome := by
  rw [visitBase] at h ⊢
  split at h
  · exact h
  · obtain ⟨_, visited, rest⟩ := Option.bind_eq_some_iff.mp h
    exact Option.bind_eq_some_iff.mpr ⟨_, extended visited, rest⟩

/-- By induction on the properties: each of them has the outcome that it had. -/
theorem visitMembers_mono (extended : Extends more inner) {properties : Properties}
    {done : List (String × Value)}
    (h : visitMembers inner done stack properties = some outcome)
    : visitMembers more done stack properties = some outcome := by
  induction properties generalizing done stack with
  | nil => exact h
  | cons entry properties ih =>
      obtain ⟨key, p⟩ := entry
      rw [visitMembers] at h ⊢
      obtain ⟨⟨derived, after⟩, visited, rest⟩ := Option.bind_eq_some_iff.mp h
      refine Option.bind_eq_some_iff.mpr ⟨_, extended visited, ?_⟩
      cases derived with
      | error e => exact rest
      | ok v? =>
          cases v? with
          | some v => exact ih rest
          | none =>
              cases required : p.required with
              | true => simpa only [required, if_true] using rest
              | false =>
                  simp only [required, Bool.false_eq_true, if_false] at rest ⊢
                  exact ih rest

theorem visitObject_mono (extended : Extends more inner)
    (h : visitObject inner t stack = some outcome)
    : visitObject more t stack = some outcome := by
  rw [visitObject] at h ⊢
  split at h
  · rw [if_pos ‹_›, h]
  · rw [if_neg ‹_›]
    exact visitMembers_mono extended h

/-- More outcomes inside make more outcomes, and none is another one. -/
theorem visitWith_mono (extended : Extends more inner)
    : Extends (visitWith more load find) (visitWith inner load find) := by
  intro t stack outcome h
  rw [visitWith] at h ⊢
  split at h
  · exact h
  · exact h
  · split at h
    · exact (if_pos ‹_›).trans (visitArray_mono extended h)
    · obtain ⟨⟨derived, after⟩, visited, rest⟩ := Option.bind_eq_some_iff.mp h
      refine (if_neg ‹_›).trans
        (Option.bind_eq_some_iff.mpr ⟨_, visitBase_mono extended visited, ?_⟩)
      cases derived with
      | error e => exact rest
      | ok v? =>
          cases v? with
          | some v => exact rest
          | none => exact visitObject_mono extended rest

/-- By induction on the depth: one derivation more inside leaves all outcomes as they are. -/
theorem visit_succ (depth : Nat)
    : Extends (visit load find (depth + 1)) (visit load find depth) := by
  induction depth with
  | zero => exact fun h => nomatch h
  | succ depth ih => exact visitWith_mono ih

/-- Where there is an outcome there is the same one if more derivations may be inside each other. -/
theorem visit_mono {less depth : Nat} (deep : less ≤ depth)
    : Extends (visit load find depth) (visit load find less) := by
  induction deep with
  | refl => exact id
  | step _ ih => exact fun h => visit_succ _ (ih h)

end

/-- Whatever depth there is for a derivation, it has no other outcome. -/
theorem ends_of_visit {depth : Nat} {outcome : Outcome}
    (h : visit load table.find depth t stack = some outcome)
    : Ends (visit load table.find depth) load table t stack := by
  obtain ⟨enough, ends⟩ := finishes load table t stack
  have deep := visit_mono (Nat.le_max_left depth enough) h
  have only := ends (max depth enough) (Nat.le_max_right depth enough)
  exact h.trans (deep.symm.trans only)

/-- The type that is filled has the value that it derives for an example, or it is as it was. -/
theorem visitFill_eq {depth : Nat} (ends : Ends (visit load table.find depth) load table t stack)
    : ∃ filled t', visitFill load table.find depth t stack = some (filled, t', stack)
        ∧ t.addDerived load table.find (table.left stack) = filled.map (t', ·)
        ∧ t' = t.withExamples t'.declaration.example? t'.declaration.examples
        ∧ (t' ≠ t → t.declaration.example? = none ∧ t.declaration.examples = []) := by
  have visited : visit load table.find depth t stack = _ := ends
  rw [visitFill, visited, TypeNode.addDerived]
  cases own : t.hasExamples with
  | true => exact ⟨_, _, rfl, rfl, t.withExamples_self.symm, fun changed => absurd rfl changed⟩
  | false =>
      have none : t.declaration.example? = none ∧ t.declaration.examples = [] := by
        simpa [TypeNode.hasExamples] using own
      cases derive load table.find (table.left stack) t with
      | error e => exact ⟨_, _, rfl, rfl, t.withExamples_self.symm, fun _ => none⟩
      | ok v? =>
          cases v? with
          | none => exact ⟨_, _, rfl, rfl, t.withExamples_self.symm, fun _ => none⟩
          | some v => exact ⟨_, _, rfl, by rw [none.2]; rfl, rfl, fun _ => none⟩

/-- Deriving a value ends for whatever types are declared, with or without an error, and leaves the
stack as it was; and so does giving a type the value that it derives, which changes nothing but
examples, and these only where there are none. -/
theorem visits_end (load : Include) (table : TypeTable) (t : TypeNode) (stack : List String)
    : (∃ enough, ∀ depth, enough ≤ depth → (visit load table.find depth t stack).isSome)
      ∧ ∀ depth, (visit load table.find depth t stack).isSome
        → visit load table.find depth t stack
            = some (derive load table.find (table.left stack) t, stack)
          ∧ ∃ filled t', visitFill load table.find depth t stack = some (filled, t', stack)
              ∧ t.addDerived load table.find (table.left stack) = filled.map (t', ·)
              ∧ t' = t.withExamples t'.declaration.example? t'.declaration.examples
              ∧ (t' ≠ t → t.declaration.example? = none ∧ t.declaration.examples = []) := by
  constructor
  · obtain ⟨enough, ends⟩ := finishes load table t stack
    exact ⟨enough, fun depth deep => Option.isSome_of_eq_some (ends depth deep)⟩
  · intro depth done
    have ends := ends_of_visit (Option.some_get done).symm
    exact ⟨ends, visitFill_eq ends⟩

end Derivation

/-- What the pass that fills in examples makes of a type is what a visit with an empty stack
leaves. -/
theorem Pass.exampleOf_visits (source : Source) (scope : Scope) {t u : TypeNode}
    (read : t.materialize (source.include scope.directory) = .ok u)
    : ∃ depth filled u', Derivation.visitFill (source.include scope.directory)
          (TypeTable.ofLibrary scope.library).find depth u [] = some (filled, u', [])
        ∧ exampleOf source scope t = filled.map fun _ => u' := by
  have all : (TypeTable.ofLibrary scope.library).left [] = scope.library.typeNames := by
    simp [TypeTable.left, TypeTable.ofLibrary]
  obtain ⟨depth, ends⟩ := Derivation.finishes (source.include scope.directory)
    (.ofLibrary scope.library) u []
  obtain ⟨filled, u', visited, derived, -⟩ := Derivation.visitFill_eq (ends depth (Nat.le_refl _))
  rw [all] at derived
  refine ⟨depth, filled, u', visited, ?_⟩
  rw [exampleOf, read, ok_bind, show u.addDerived _ scope.library.getType? _ = _ from derived]
  cases filled <;> rfl

end Raml
