import Raml.Proofs.Resolution.Lineage
import Raml.Review

/-! Namespaces: which libraries a library leads to, and what they declare as seen from it.

A list of namespaces says in which library something stands; the text before its name is made of
them.
-/

namespace Raml

-----------------------------------------------------------------------------------------
-- Names behind namespaces
-----------------------------------------------------------------------------------------

namespace TypeName

variable {path other : List String}

/-- The namespaces of a name, each with a point behind it, after what comes before. -/
def leadFrom (lead : String) (path : List String) : String :=
  path.foldl (fun lead name => lead ++ name ++ ".") lead

/-- Each namespace is written with its point. -/
theorem toList_leadFrom (lead : String) (path : List String)
    : (leadFrom lead path).toList
      = lead.toList ++ path.flatMap fun name => name.toList ++ ['.'] := by
  induction path generalizing lead with
  | nil => simp [leadFrom]
  | cons name path ih =>
      rw [leadFrom, List.foldl_cons, ← leadFrom, ih]
      simp

/-- A separator between parts is one behind all of them but the last. -/
theorem intercalate_eq_flatMap {α : Type} (separator : α) {parts : List (List α)}
    (h : parts ≠ [])
    : [separator].intercalate parts
      = parts.dropLast.flatMap (· ++ [separator]) ++ parts.getLastD [] := by
  induction parts with
  | nil => exact absurd rfl h
  | cons part parts ih =>
      cases parts with
      | nil => simp
      | cons next parts =>
          have rest := ih nofun
          simp_all [List.intercalate]

/-- A name is its last part, with the namespaces before it. -/
theorem leadFrom_parts (name : String)
    : leadFrom "" (parts name).dropLast ++ (parts name).getLastD "" = name := by
  have split := List.splitOn_ne_nil '.' name.toList
  have last : (parts name).getLastD "" = String.ofList ((name.toList.splitOn '.').getLastD []) := by
    rw [parts, List.getLastD_eq_getLast?, List.getLast?_map, List.getLastD_eq_getLast?]
    cases (name.toList.splitOn '.').getLast? <;> rfl
  apply String.toList_injective
  calc (leadFrom "" (parts name).dropLast ++ (parts name).getLastD "").toList
      = (name.toList.splitOn '.').dropLast.flatMap (· ++ ['.'])
          ++ (name.toList.splitOn '.').getLastD [] := by
        rw [String.toList_append, toList_leadFrom, last, parts, ← List.map_dropLast,
          List.flatMap_map]
        simp
    _ = name.toList := by
        rw [← intercalate_eq_flatMap '.' split, List.intercalate_splitOn]

/-- The first part of a name is what stands before its first point. -/
theorem parts_append_point {first : String} (undotted : '.' ∉ first.toList) (rest : String)
    : parts (first ++ "." ++ rest) = first :: parts rest := by
  have chars : (first ++ "." ++ rest).toList = first.toList ++ '.' :: rest.toList := by simp
  rw [parts, chars, List.splitOn_append_cons_self, List.splitOn_eq_singleton undotted]
  simp [parts]

/-- What comes before the namespaces stays in front. -/
theorem leadFrom_eq_append (lead : String) (path : List String)
    : leadFrom lead path = lead ++ leadFrom "" path :=
  String.toList_injective (by simp [toList_leadFrom])

theorem leadFrom_cons (name : String) (path : List String)
    : leadFrom "" (name :: path) = name ++ "." ++ leadFrom "" path :=
  String.toList_injective (by simp [toList_leadFrom])

/-- The parts of a name behind namespaces are these, and then its own. -/
theorem parts_leadFrom_append (undotted : ∀ name ∈ path, '.' ∉ name.toList) (rest : String)
    : parts (leadFrom "" path ++ rest) = path ++ parts rest := by
  induction path with
  | nil => simp [leadFrom]
  | cons name path ih =>
      obtain ⟨first, others⟩ := List.forall_mem_cons.mp undotted
      rw [leadFrom_cons, String.append_assoc, parts_append_point first, ih others, List.cons_append]

/-- Chains of namespaces can be told apart by their text. -/
theorem leadFrom_inj (undotted : ∀ name ∈ path, '.' ∉ name.toList)
    (undotted' : ∀ name ∈ other, '.' ∉ name.toList) (same : leadFrom "" path = leadFrom "" other)
    : path = other := by
  have parts := congrArg (fun lead => parts (lead ++ "")) same
  simpa only [parts_leadFrom_append undotted, parts_leadFrom_append undotted',
    List.append_cancel_right_eq] using parts

end TypeName

open Raml.TypeName (leadFrom)

-----------------------------------------------------------------------------------------
-- Libraries behind namespaces
-----------------------------------------------------------------------------------------

namespace Library

/-- The namespaces lead, one after the other, from a library to another one. -/
inductive Reaches : Library → List String → Library → Prop where
  | self (l : Library) : Reaches l [] l
  | used {l used m : Library} {name : String} {path : List String}
      (h : (name, Use.loaded used) ∈ l.uses) (inside : Reaches used path m)
      : Reaches l (name :: path) m

variable {l m n : Library} {path more : List String}

/-- Namespaces lead on from where others end. -/
theorem Reaches.trans (h : l.Reaches path m) (h' : m.Reaches more n)
    : l.Reaches (path ++ more) n := by
  induction h with
  | self => exact h'
  | used member _ ih => exact .used member (ih h')

/-- The library that is looked up is one that the namespaces lead to. -/
theorem reaches_of_descend? (h : l.descend? path = some m) : l.Reaches path m := by
  induction path generalizing l with
  | nil =>
      cases h
      exact .self _
  | cons name path ih =>
      obtain ⟨used, found, rest⟩ := Option.bind_eq_some_iff.mp h
      exact .used (mem_uses_of_namespace? found) (ih rest)

/-- Whatever is reached lies within. -/
theorem Reaches.within (h : l.Reaches path m) : Within m l := by
  induction h with
  | self => exact .self _
  | used member _ ih => exact .used member ih

/-- Whatever lies within is reached by some namespaces, by induction on how deep it lies. -/
theorem Within.exists_reaches (h : Within m l) : ∃ path, l.Reaches path m := by
  induction h with
  | self => exact ⟨[], .self _⟩
  | used member _ ih =>
      obtain ⟨path, inside⟩ := ih
      exact ⟨_ :: path, .used member inside⟩

/-- The trait that a name denotes is declared in a library that its namespaces lead to. -/
theorem reaches_of_getTrait? {l : Library} {name : String} {t : Trait}
    (h : l.getTrait? name = some t)
    : ∃ path m key, l.Reaches path m ∧ (key, t) ∈ m.traits := by
  obtain ⟨m, descended, found⟩ := getTrait?_eq_some_iff.mp h
  exact ⟨_, m, _, reaches_of_descend? descended, Keyed.mem_of_get? found⟩

theorem nestedFrom_eq (lead : String) (l : Library)
    : nestedFrom lead l = nestedUses lead l.uses := by
  cases l
  rfl

/-- What is seen of libraries in use is each of them under its namespace, and what is seen from
there. -/
theorem mem_nestedUses_iff {lead : String} {uses : Uses} {entry : String × Library}
    : entry ∈ nestedUses lead uses
      ↔ ∃ name used, (name, Use.loaded used) ∈ uses
          ∧ (entry = (lead ++ name ++ ".", used)
            ∨ entry ∈ nestedFrom (lead ++ name ++ ".") used) := by
  induction uses with
  | nil => simp [nestedUses]
  | cons first uses ih =>
      obtain ⟨key, use⟩ := first
      rw [nestedUses, List.mem_append, ih]
      constructor
      · rintro (here | ⟨name, used, member, there⟩)
        · cases use with
          | external => cases here
          | loaded used =>
              exact ⟨key, used, List.mem_cons_self, List.mem_cons.mp here⟩
        · exact ⟨name, used, List.mem_cons_of_mem _ member, there⟩
      · rintro ⟨name, used, member, there⟩
        rcases List.mem_cons.mp member with same | later
        · cases same
          exact Or.inl (List.mem_cons.mpr there)
        · exact Or.inr ⟨name, used, later, there⟩

/-- The libraries below a library are those that namespaces lead to, each behind them. -/
theorem mem_nestedFrom_iff {lead full : String}
    : (full, m) ∈ nestedFrom lead l
      ↔ ∃ name path, l.Reaches (name :: path) m ∧ full = leadFrom lead (name :: path) := by
  induction l using induct generalizing lead with
  | step l ih =>
      rw [nestedFrom_eq, mem_nestedUses_iff]
      constructor
      · rintro ⟨name, used, member, same | inside⟩
        · cases same
          exact ⟨name, [], .used member (.self _), rfl⟩
        · obtain ⟨next, path, reaches, rfl⟩ := (ih name used member).mp inside
          exact ⟨name, next :: path, .used member reaches, rfl⟩
      · rintro ⟨name, path, ⟨⟩ | @⟨_, used, _, _, _, member, inside⟩, rfl⟩
        refine ⟨name, used, member, ?_⟩
        cases inside with
        | self => exact Or.inl rfl
        | used first rest => exact Or.inr ((ih name used member).mpr ⟨_, _, .used first rest, rfl⟩)

/-- What a library and those below it declare are names of their own behind namespaces. -/
theorem mem_declaredNames_iff {own : Library → List String} {name : String}
    : name ∈ Review.declaredNames own l
      ↔ ∃ path m key, l.Reaches path m ∧ key ∈ own m ∧ name = leadFrom "" path ++ key := by
  simp only [Review.declaredNames, List.mem_append, List.mem_flatMap, List.mem_map]
  constructor
  · rintro (here | ⟨⟨_, m⟩, nested, key, member, rfl⟩)
    · exact ⟨[], l, name, .self l, here, (String.empty_append).symm⟩
    · obtain ⟨first, path, reaches, rfl⟩ := mem_nestedFrom_iff.mp nested
      exact ⟨first :: path, m, key, reaches, member, rfl⟩
  · rintro ⟨path, m, key, reaches, member, rfl⟩
    cases reaches with
    | self =>
        refine Or.inl ?_
        rw [leadFrom, List.foldl_nil, String.empty_append]
        exact member
    | used first rest =>
        refine Or.inr ⟨(_, m), mem_nestedFrom_iff.mpr ⟨_, _, .used first rest, rfl⟩, ?_⟩
        exact ⟨key, member, rfl⟩

-----------------------------------------------------------------------------------------
-- Libraries side by side
-----------------------------------------------------------------------------------------

/-- Wherever namespaces lead in one of two libraries they lead in the other one too, to libraries
that are related. -/
structure Corresponds (Q : List String → Library → Library → Prop) (l l' : Library) : Prop where
  forward {path : List String} {m : Library} (h : l.Reaches path m)
    : ∃ m', l'.Reaches path m' ∧ Q path m m'
  backward {path : List String} {m' : Library} (h : l'.Reaches path m')
    : ∃ m, l.Reaches path m ∧ Q path m m'

/-- Libraries may be related by less. -/
theorem Corresponds.mono {Q Q' : List String → Library → Library → Prop} {l' : Library}
    (h : l.Corresponds Q l') (weaken : ∀ path m m', l.Reaches path m → Q path m m' → Q' path m m')
    : l.Corresponds Q' l' where
  forward reaches :=
    have ⟨m', reaches', related⟩ := h.forward reaches
    ⟨m', reaches', weaken _ _ _ reaches related⟩
  backward reaches' :=
    have ⟨m, reaches, related⟩ := h.backward reaches'
    ⟨m, reaches, weaken _ _ _ reaches related⟩

/-- Two correspondences in turn make a third. -/
theorem Corresponds.trans {Q Q' : List String → Library → Library → Prop} {l' l'' : Library}
    (h : l.Corresponds Q l') (h' : l'.Corresponds Q' l'')
    : l.Corresponds (fun path m m'' => ∃ m', Q path m m' ∧ Q' path m' m'') l'' where
  forward reaches :=
    have ⟨m', reaches, first⟩ := h.forward reaches
    have ⟨m'', reaches, second⟩ := h'.forward reaches
    ⟨m'', reaches, m', first, second⟩
  backward reaches :=
    have ⟨m', reaches, second⟩ := h'.backward reaches
    have ⟨m, reaches, first⟩ := h.backward reaches
    ⟨m, reaches, m', first, second⟩

/-- The same for what stands under one namespace. -/
inductive UseCorresponds (Q : List String → Library → Library → Prop) : Use → Use → Prop where
  | external (path : String) : UseCorresponds Q (.external path) (.external path)
  | loaded {l l' : Library} (h : l.Corresponds Q l') : UseCorresponds Q (.loaded l) (.loaded l')

/-- Uses correspond, each one under its own namespace. -/
abbrev UsesCorrespond (Q : List String → Library → Library → Prop) : Uses → Uses → Prop :=
  List.Forall₂ fun use use' =>
    use.1 = use'.1 ∧ UseCorresponds (fun path => Q (use.1 :: path)) use.2 use'.2

variable {Q Q' : List String → Library → Library → Prop} {l' l'' : Library}

/-- From uses that correspond the same namespaces lead on. -/
theorem forward_of_uses {uses uses' : Uses} (each : UsesCorrespond Q uses uses') {name : String}
    {used : Library} (member : (name, Use.loaded used) ∈ uses) (reaches : used.Reaches path m)
    : ∃ used' m', (name, Use.loaded used') ∈ uses' ∧ used'.Reaches path m'
        ∧ Q (name :: path) m m' := by
  induction each with
  | nil => cases member
  | @cons use use' _ _ head _ ih =>
      rcases List.mem_cons.mp member with rfl | later
      · obtain ⟨_, use'⟩ := use'
        obtain ⟨rfl, _ | corresponds⟩ := head
        obtain ⟨m', reaches', related⟩ := corresponds.forward reaches
        exact ⟨_, m', List.mem_cons_self, reaches', related⟩
      · obtain ⟨used', m', member', rest⟩ := ih later
        exact ⟨used', m', List.mem_cons_of_mem _ member', rest⟩

/-- The other direction: what is reached from later uses comes of what is reached from earlier ones.
-/
theorem backward_of_uses {uses uses' : Uses} (each : UsesCorrespond Q uses uses') {name : String}
    {used' m' : Library} (member : (name, Use.loaded used') ∈ uses')
    (reaches : used'.Reaches path m')
    : ∃ used m, (name, Use.loaded used) ∈ uses ∧ used.Reaches path m
        ∧ Q (name :: path) m m' := by
  induction each with
  | nil => cases member
  | @cons use use' _ _ head _ ih =>
      rcases List.mem_cons.mp member with rfl | later
      · obtain ⟨_, use⟩ := use
        obtain ⟨rfl, _ | corresponds⟩ := head
        obtain ⟨m, reaches', related⟩ := corresponds.backward reaches
        exact ⟨_, m, List.mem_cons_self, reaches', related⟩
      · obtain ⟨used, m, member', rest⟩ := ih later
        exact ⟨used, m, List.mem_cons_of_mem _ member', rest⟩

/-- Libraries correspond if they are related and what they use corresponds. -/
theorem corresponds_of_uses (own : Q [] l l') (each : UsesCorrespond Q l.uses l'.uses)
    : l.Corresponds Q l' where
  forward
    | .self _ => ⟨l', .self _, own⟩
    | .used member inside =>
        have ⟨_, m', member', reaches, related⟩ := forward_of_uses each member inside
        ⟨m', .used member' reaches, related⟩
  backward
    | .self _ => ⟨l, .self _, own⟩
    | .used member inside =>
        have ⟨_, m, member', reaches, related⟩ := backward_of_uses each member inside
        ⟨m, .used member' reaches, related⟩

/-- A library as it is used, and one that stands in its place. -/
inductive UseRelated (S : Library → Library → Prop) : Use → Use → Prop where
  | external (path : String) : UseRelated S (.external path) (.external path)
  | loaded {l l' : Library} (h : S l l') : UseRelated S (.loaded l) (.loaded l')

theorem UseRelated.mono {S S' : Library → Library → Prop} {use use' : Use}
    (h : UseRelated S use use') (weaken : ∀ l l', S l l' → S' l l')
    : UseRelated S' use use' := by
  cases h with
  | external path => exact .external path
  | loaded related => exact .loaded (weaken _ _ related)

/-- Libraries correspond throughout if those that they use are related as they are. -/
theorem corresponds_of_related {S : Library → Library → Prop}
    (step : ∀ l l', S l l'
      → List.Forall₂ (fun use use' => use.1 = use'.1 ∧ UseRelated S use.2 use'.2) l.uses l'.uses)
    (h : S l l')
    : l.Corresponds (fun _ => S) l' := by
  induction l using induct generalizing l' with
  | step l ih =>
      refine corresponds_of_uses h ?_
      have each := step l l' h
      generalize l'.uses = uses' at each
      have inside := fun name used => ih name used
      generalize l.uses = uses at each inside
      induction each with
      | nil => exact .nil
      | @cons use use' _ _ head _ rest =>
          obtain ⟨name, use⟩ := use
          obtain ⟨_, use'⟩ := use'
          obtain ⟨rfl, related⟩ := head
          refine .cons ⟨rfl, ?_⟩ (rest fun name used later => inside name used (.tail _ later))
          cases related with
          | external path => exact .external path
          | loaded related => exact .loaded (inside name _ (.head _) related)

end Library

end Raml
