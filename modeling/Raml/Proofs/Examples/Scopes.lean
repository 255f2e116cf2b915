import Raml.Proofs.Documents.Files
import Raml.Proofs.Documents.Namespaces
import Raml.Proofs.Examples.Agreement
import Raml.Proofs.Examples.Derivation
import Raml.Proofs.Examples.Fitting
import Raml.Proofs.Resolution.Lineage

/-! Examples of types that other libraries declare.

A node that names a type of another library derives its example from that type, but with the names
and the directory of its own library. It gets what the type derives where it is declared if all that
is consulted on the way is the same in both.
-/

namespace Raml

-----------------------------------------------------------------------------------------
-- Names of types in other libraries
-----------------------------------------------------------------------------------------

namespace Library

/-- Names that denote types are among the names of types. -/
theorem mem_typeNames_of_getType? {l : Library} {name : String} {t : TypeNode}
    (h : l.getType? name = some t)
    : name ∈ l.typeNames := by
  obtain ⟨m, descended, found⟩ := getType?_eq_some_iff.mp h
  have declared : (TypeName.parts name).getLastD "" ∈ Keyed.keys m.types :=
    Keyed.get?_isSome_iff.mp (Option.isSome_iff_exists.mpr ⟨t, found⟩)
  have whole := TypeName.leadFrom_parts name
  rw [typeNames, List.mem_append]
  cases path : (TypeName.parts name).dropLast with
  | nil =>
      rw [path] at descended whole
      cases descended
      rw [TypeName.leadFrom, List.foldl_nil, String.empty_append] at whole
      exact Or.inl (whole ▸ declared)
  | cons first rest =>
      rw [path] at descended whole
      have nested : (TypeName.leadFrom "" (first :: rest), m) ∈ l.nested :=
        mem_nestedFrom_iff.mpr ⟨first, rest, reaches_of_descend? descended, rfl⟩
      refine Or.inr (List.mem_flatMap.mpr ⟨_, nested, ?_⟩)
      exact List.mem_map.mpr ⟨_, declared, whole⟩

/-- All names that denote a type are known. -/
theorem known_typeNames (l : Library) (name : String)
    : Derivation.known l.getType? l.typeNames name = l.getType? name := by
  cases found : l.getType? name with
  | none => simp [Derivation.known, found]
  | some t => exact Derivation.known_eq_some.mpr ⟨mem_typeNames_of_getType? found, found⟩

end Library

-----------------------------------------------------------------------------------------
-- Scopes
-----------------------------------------------------------------------------------------

/-- The scope of the library that a chain of namespaces leads to. -/
def Scope.descend? (s : Scope) : List String → Option Scope
  | [] => some s
  | name :: path => (s.library.namespace? name).bind fun l => (s.enter name l).descend? path

theorem Scope.library_descend? {outer inner : Scope} {path : List String}
    (h : outer.descend? path = some inner)
    : outer.library.descend? path = some inner.library := by
  induction path generalizing outer with
  | nil =>
      cases h
      rfl
  | cons name path ih =>
      obtain ⟨used, found, rest⟩ := Option.bind_eq_some_iff.mp h
      exact Option.bind_eq_some_iff.mpr ⟨used, found, ih rest⟩

namespace Pass

open Raml.Derivation

/-- Two scopes have the same for a type that the derivation of a value comes by: its examples and,
if it has no value of its own, what the name of its base denotes. That is not the name for which
the value is derived. -/
structure Shares (source : Source) (inner outer : Scope) (name : String) (u : TypeNode) : Prop where
  examples (e : Example) (member : e ∈ u.allExamples)
    : e.valueOf? (source.include inner.directory) u.kind
      = e.valueOf? (source.include outer.directory) u.kind
  base (valueless : firstValue (source.include inner.directory) u.kind u.allExamples = .ok none)
    (looks : u.needsLookup = true)
    : u.baseName ≠ name ∧ inner.library.getType? u.baseName = outer.library.getType? u.baseName

variable {source : Source} {outer inner : Scope}

theorem Shares.sees {name : String} {u : TypeNode} (shares : Shares source inner outer name u)
    : Sees (fun _ => True) (source.include inner.directory) (source.include outer.directory)
        inner.library.getType? outer.library.getType? inner.library.typeNames
        (without outer.library.typeNames name) u where
  examples e member := ⟨shares.examples e member, fun _ _ => trivial, fun _ _ => trivial⟩
  base valueless looks := by
    obtain ⟨other, same⟩ := shares.base valueless looks
    rw [known_without, if_neg other, Library.known_typeNames, Library.known_typeNames, same]

/-- A node without examples of its own takes what its base derives, if that fits. -/
theorem derive_of_base {load : Include} {l : Library} {n t : TypeNode} {v : Value}
    (none : n.hasExamples = false) (single : n.isArray = false) (looks : n.needsLookup = true)
    (denotes : l.getType? n.baseName = some t)
    (derived : derive load l.getType? (without l.typeNames n.baseName) t = .ok (some v))
    (accepts : n.Accepts {} v)
    : derive load l.getType? l.typeNames n = .ok (some v) := by
  have known : known l.getType? l.typeNames n.baseName = some t := by
    rw [Library.known_typeNames, denotes]
  have base : (basesAmong load l.getType? l.typeNames).of? n = some t := by
    rw [of?_among, if_pos looks, known]
  have based : fromBase (basesAmong load l.getType? l.typeNames) n = .ok (some v) := by
    unfold fromBase
    rw [base, derived_among known, derived]
    simp [fits_iff.mpr accepts]
  rw [derive_eq, value_eq, TypeNode.hasExamples_eq_false_iff.mp none]
  simp [firstValue, fallback, single, plain, based, ok_bind, pure_eq_ok]

/-- A node that names a type of another library gets the example that the type derives there, if all
that the derivation consults is the same where the node stands. -/
theorem exampleOf_qualified (path : List String) (name : String) {t n : TypeNode} {v : Value}
    (leads : outer.descend? path = some inner)
    (declared : Keyed.get? inner.library.types name = some t)
    (named : TypeName.parts n.baseName = path ++ [name]) (looks : n.needsLookup = true)
    (single : n.isArray = false) (none : n.hasExamples = false) (bare : t.hasExamples = false)
    (shares : ∀ u, Visits (source.include inner.directory) inner.library.getType? t u
      → Shares source inner outer n.baseName u)
    (derives : exampleOf source inner t = .ok (t.withDerived v)) (accepts : n.Accepts {} v)
    : exampleOf source outer n = .ok (n.withDerived v) := by
  have denotes : outer.library.getType? n.baseName = some t := by
    simp [Library.getType?, Library.qualified?, named, Scope.library_descend? leads, declared]
  have inside : derive (source.include inner.directory) inner.library.getType?
      inner.library.typeNames t = .ok (some v) := by
    rw [exampleOf_of_none _ _ bare] at derives
    obtain ⟨v?, derived, same⟩ := map_eq_ok_iff.mp derives
    cases v? with
    | none => exact absurd same.symm (t.withDerived_ne bare v)
    | some w =>
        cases TypeNode.withDerived_inj same
        exact derived
  -- Outside, the name of the node's base is not looked up again while that base is followed.
  have alike := derive_alike fun u visits => (shares u visits).sees
  have outside := derive_of_base none single looks denotes (alike.same.symm.trans inside) accepts
  rw [exampleOf_of_none _ _ none, outside]
  rfl

end Pass

-----------------------------------------------------------------------------------------
-- A word with two meanings
-----------------------------------------------------------------------------------------

/-- The type of a word, with its meaning for an example. -/
def word (meaning : String) : TypeNode :=
  (TypeNode.ofName "string").withExamples (some (.ofValue (.string meaning))) []

/-- A library that explains its terms by its own words, and words with another meaning around it. -/
def lexicon (term entry : TypeNode) (meaning : String) : Document :=
  { library := { Library.empty with
      types := [("Word", word meaning), ("Entry", entry)]
      uses := [("lib", .loaded { Library.empty with
        types := [("Word", word "inside"), ("Term", term)] })] } }

/-- A type that names another one which is a text in the end. -/
def textual (name : String) : TypeNode := { TypeNode.ofName name with kind := .string }

theorem word_shares {outer inner : Scope} {name meaning : String} {u : TypeNode}
    (visits : Derivation.Visits (Source.empty.include inner.directory) inner.library.getType?
      (word meaning) u)
    : Pass.Shares .empty inner outer name u := by
  have value : Derivation.firstValue (Source.empty.include inner.directory) (word meaning).kind
      (word meaning).allExamples = .ok (some (.string meaning)) := rfl
  cases visits with
  | self =>
      refine ⟨fun e member => ?_, fun valueless => ?_⟩
      · cases List.mem_singleton.mp member
        rfl
      · cases value.symm.trans valueless
  | base valueless => cases value.symm.trans valueless
  | property valueless => cases value.symm.trans valueless

/-- Where a word means the same, an entry gets the example that the term has in its library. -/
theorem entry_derives
    : Pass.exampleOf .empty (lexicon (textual "Word") (textual "lib.Term") "inside").scope
        (textual "lib.Term") = .ok ((textual "lib.Term").withDerived (.string "inside")) := by
  refine Pass.exampleOf_qualified ["lib"] "Term" (t := textual "Word") rfl rfl
    (by rfl) (by rfl) (by rfl) rfl rfl ?_ ?_ ?_
  · intro u visits
    cases visits with
    | self =>
        refine ⟨nofun, fun _ _ => ⟨by decide, ?_⟩⟩
        rfl
    | base _ _ found inside =>
        cases found
        exact word_shares inside
    | property _ member => cases member
  · rw [Pass.exampleOf_of_none _ _ rfl, Pass.derive_of_base (t := word "inside")
      (v := .string "inside") rfl rfl (by rfl)]
    · rfl
    · rfl
    · rw [Derivation.derive_eq, Derivation.value_eq]
      rfl
    · rfl
  · rfl

/-- What a term derives in its library, and what an entry outside gets that accepts it. -/
structure Document.Quotes (d : Document) (inner : Scope) (t n : TypeNode) (v w : Value) : Prop where
  leads : d.scope.descend? ["lib"] = some inner
  declared : Keyed.get? inner.library.types "Term" = some t
  stands : Keyed.get? d.library.types "Entry" = some n
  bare : t.hasExamples = false
  none : n.hasExamples = false
  inside : Pass.exampleOf .empty inner t = .ok (t.withDerived v)
  outside : Pass.exampleOf .empty d.scope n = .ok (n.withDerived w)
  accepts : n.Accepts {} v

/-- The texts of both values once a document is prepared. -/
def Document.quotes? (d : Document) : Option (Option String × Option String) := do
  let d ← (({} : Parser).prepare .api none d).toOption
  let inner ← d.scope.descend? ["lib"]
  let t ← Keyed.get? inner.library.types "Term"
  let n ← Keyed.get? d.library.types "Entry"
  let v ← (← (Derivation.derive (Source.empty.include inner.directory) inner.library.getType?
    inner.library.typeNames t).toOption)
  let w ← (← (Derivation.derive (Source.empty.include d.scope.directory)
    d.scope.library.getType? d.scope.library.typeNames n).toOption)
  if t.hasExamples || n.hasExamples || !Derivation.fits n v then none else return (v.text?, w.text?)

theorem Document.quotes_of_quotes? {d₀ : Document} {texts : Option String × Option String}
    (h : d₀.quotes? = some texts)
    : ∃ d inner t n v w, ({} : Parser).prepare .api none d₀ = .ok d
        ∧ d.Quotes inner t n v w ∧ texts = (v.text?, w.text?) := by
  obtain ⟨d, prepared, rest⟩ := Option.bind_eq_some_iff.mp h
  obtain ⟨inner, leads, rest⟩ := Option.bind_eq_some_iff.mp rest
  obtain ⟨t, declared, rest⟩ := Option.bind_eq_some_iff.mp rest
  obtain ⟨n, stands, rest⟩ := Option.bind_eq_some_iff.mp rest
  obtain ⟨_, inside, first⟩ := Option.bind_eq_some_iff.mp rest
  obtain ⟨v, rfl, rest⟩ := Option.bind_eq_some_iff.mp first
  obtain ⟨_, outside, second⟩ := Option.bind_eq_some_iff.mp rest
  obtain ⟨w, rfl, rest⟩ := Option.bind_eq_some_iff.mp second
  obtain ⟨conditions, texts⟩ := Option.ite_none_left_eq_some.mp rest
  simp only [Bool.or_eq_true, not_or, Bool.not_eq_true, Bool.not_eq_false'] at conditions
  obtain ⟨⟨bare, none⟩, accepts⟩ := conditions
  have here : Pass.exampleOf .empty inner t = .ok (t.withDerived v) := by
    rw [Pass.exampleOf_of_none _ _ bare, ok_of_toOption inside]
    rfl
  have there : Pass.exampleOf .empty d.scope n = .ok (n.withDerived w) := by
    rw [Pass.exampleOf_of_none _ _ none, ok_of_toOption outside]
    rfl
  exact ⟨d, inner, t, n, v, w, ok_of_toOption prepared, ⟨leads, declared, stands, bare, none, here,
    there, Derivation.fits_iff.mp accepts⟩, (Option.some.inj texts).symm⟩

theorem lexicon_quotes?
    : (lexicon (.ofName "Word") (.ofName "lib.Term") "outside").quotes?
      = some (some "inside", some "outside") := by
  decide +kernel

/-- A node does not always get the example that the type it names has in its library: outside, the
names that lead there may have other meanings. -/
theorem not_exampleOf_qualified
    : ¬∀ (d₀ d : Document) (inner : Scope) (path : List String) (name key reference : String)
        (t n : TypeNode) (v : Value),
        ({} : Parser).prepare .api none d₀ = .ok d → d.scope.descend? path = some inner
        → Keyed.get? inner.library.types name = some t → t.hasExamples = false
        → Keyed.get? d₀.library.types key = some (.ofName reference)
        → TypeName.parts reference = path ++ [name]
        → Keyed.get? d.library.types key = some n → n.hasExamples = false
        → Pass.exampleOf .empty inner t = .ok (t.withDerived v) → n.Accepts {} v
        → Pass.exampleOf .empty d.scope n = .ok (n.withDerived v) := by
  intro same
  obtain ⟨d, inner, t, n, v, w, prepared, quotes, texts⟩ :=
    Document.quotes_of_quotes? lexicon_quotes?
  have equal := same _ d inner ["lib"] "Term" "Entry" "lib.Term" t n v prepared quotes.leads
    quotes.declared quotes.bare rfl (by rfl) quotes.stands quotes.none quotes.inside
    quotes.accepts
  have meaning : w = v :=
    TypeNode.withDerived_inj (Except.ok.inj (quotes.outside.symm.trans equal))
  subst meaning
  obtain ⟨first, second⟩ := Prod.mk.inj texts
  exact absurd (first.trans second.symm) (by decide)

end Raml
