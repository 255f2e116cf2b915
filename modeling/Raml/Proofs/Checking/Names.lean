import Raml.Proofs.Checking.Acceptance
import Raml.Proofs.Resolution.Libraries

/-! Types that say no more than the name of another one, and arrays of such types.

They inherit the kind and the properties of the declared type and judge values by these. Whether the
declared type is an array or written in place is not inherited, so they take the values that it
takes exactly if it is neither.
-/

namespace Raml

namespace TypeName

variable {name : String}

/-- Brackets at the end of a name mark an array and are taken off. -/
theorem splitArray_brackets (name : String) : splitArray (name ++ "[]") = (name, true) := by
  simp [splitArray]

/-- A name that does not end with brackets is the name of no array. -/
theorem splitArray_eq_self (bare : (splitArray name).2 = false)
    : splitArray name = (name, false) := by
  unfold splitArray at bare ⊢
  split at bare
  · cases bare
  · rfl

/-- They make no difference to whether a name refers to a declared type. -/
theorem isReference_brackets (bare : (splitArray name).2 = false)
    : isReference (name ++ "[]") = isReference name := by
  rw [isReference, isReference, splitArray_brackets, splitArray_eq_self bare]

end TypeName

namespace TypeNode

variable {t u : TypeNode}

/-- The type judges values by its kind and its properties alone: it is no array, and a type written
in place only if its values are not checked property by property. -/
def Plain (t : TypeNode) : Prop :=
  t.isArray = false ∧ (t.isInline = true → t.kind.hasProperties = false)

/-- An array and the type of its items take different values. -/
theorem exists_ne_of_array (kind : u.kind = t.kind) (array : t.isArray = true)
    (named : u.isInline = false)
    : ∃ v, ¬(u.AcceptsItem {} v ↔ t.Accepts {} v) := by
  have takesNone : t.Accepts {} (.array []) := by simp [accepts_array_iff array]
  have refuses : ¬t.Accepts {} (.boolean true) := not_accepts_boolean_of_array array true
  cases properties : u.kind.hasProperties with
  | true =>
      refine ⟨.array [], fun same => ?_⟩
      have taken := same.mpr takesNone
      simp [AcceptsItem, Check.single_eq, properties, named] at taken
  | false =>
      have scalar (v : Value) : u.AcceptsItem {} v ↔ Check.scalar {} u v = .ok () :=
        acceptsItem_iff_scalar properties
      cases known : u.kind with
      | array =>
          -- Here a list is a value as well, but not as an item of a list.
          refine ⟨.array [.boolean true], fun same => ?_⟩
          have each := same.mp ((scalar _).mpr (by simp [Check.scalar, known]))
          simp [accepts_array_iff array, AcceptsItem, Check.single_eq, ← kind, Check.scalar, known,
            Kind.hasProperties] at each
      | any => exact ⟨.boolean true, fun same =>
          refuses (same.mp ((scalar _).mpr (by simp [Check.scalar, known])))⟩
      | file => exact ⟨.boolean true, fun same =>
          refuses (same.mp ((scalar _).mpr (by simp [Check.scalar, known])))⟩
      | object => simp [known, Kind.hasProperties] at properties
      | custom name => simp [known, Kind.hasProperties] at properties
      | _ =>
          refine ⟨.array [], fun same => ?_⟩
          have taken := (scalar _).mp (same.mpr takesNone)
          simp [Check.scalar, known] at taken

/-- Among the types that are not written in place and have the kind and the properties of another
one, each takes what that one takes exactly if that one is plain. -/
theorem acceptsItem_iff_accepts_iff (kind : u.kind = t.kind)
    (properties : u.properties = t.properties) (named : u.isInline = false)
    : (∀ o v, u.AcceptsItem o v ↔ t.Accepts o v) ↔ t.Plain := by
  constructor
  · intro same
    have noArray : t.isArray = false := by
      by_contra array
      obtain ⟨v, differs⟩ := exists_ne_of_array kind (by simpa using array) named
      exact differs (same {} v)
    refine ⟨noArray, fun inPlace => ?_⟩
    by_contra checked
    have checked : t.kind.hasProperties = true := by simpa using checked
    have taken : t.Accepts {} (.boolean true) :=
      (accepts_iff_of_not_array noArray).mpr (acceptsItem_of_inline checked inPlace)
    exact not_acceptsItem_boolean (kind ▸ checked) named true ((same _ _).mpr taken)
  · rintro ⟨noArray, inPlace⟩ o v
    rw [accepts_iff_of_not_array noArray]
    refine acceptsItem_congr kind properties fun checked => ?_
    cases inline : t.isInline with
    | false => exact named
    | true =>
        rw [kind, inPlace inline] at checked
        cases checked

/-- Lists of values are compared item by item. -/
theorem forall_array_iff (array : u.isArray = true)
    : (∀ o vs, u.Accepts o (.array vs) ↔ ∀ v ∈ vs, t.Accepts o v)
      ↔ ∀ o v, u.AcceptsItem o v ↔ t.Accepts o v := by
  simp only [accepts_array_iff array]
  constructor
  · intro same o v
    simpa using same o [v]
  · intro same o vs
    exact forall₂_congr fun v _ => same o v

/-- What a type comes to that declares nothing but a name: the kind and the properties of the type
with that name. -/
theorem fill_of_bare {r : Library} {u t : TypeNode} {name : String} (fresh : u.Fresh)
    (bare : u.object.isEmpty = true) (base? : u.base? = some name)
    (found : r.getType? name = some t)
    : ∃ u', u.fill r = .ok u' ∧ u'.isInline = u.isInline ∧ u'.isArray = u.isArray
        ∧ u'.kind = t.kind ∧ u'.properties = t.properties := by
  have unresolved := fresh.unresolved
  have none : u.properties = [] := by
    simp only [ObjectFacets.isEmpty, Bool.and_eq_true, List.isEmpty_iff] at bare
    exact bare.1.1.1.1.1
  rcases u.fill_cases r with ⟨ok, -⟩ | ⟨other, mentioned, missing, -⟩
  · refine ⟨_, ok, ?_⟩
    rw [fillFrom_eq unresolved, base?, Option.bind_some, found, filled_some, bare]
    exact ⟨rfl, rfl, rfl, rfl⟩
  · rw [references_eq unresolved, base?, none] at mentioned
    cases List.mem_singleton.mp mentioned
    cases missing.symm.trans found

end TypeNode

-----------------------------------------------------------------------------------------
-- Declared types under their names
-----------------------------------------------------------------------------------------

namespace TypeNode

/-- A type whose name reads as a reference and is no built-in one refers to a declared type. -/
theorem Fresh.base?_of_isReference {t : TypeNode} (fresh : t.Fresh) {name : String} {array : Bool}
    (split : TypeName.splitArray t.typeName = (name, array))
    (reference : TypeName.isReference t.typeName = true)
    (declared : (Kind.ofName name).isBuiltIn = false)
    : t.base? = some name ∧ t.isArray = array ∧ t.isInline = false := by
  have baseName : t.baseName = name := by rw [fresh.baseName_eq, split]
  have isArray : t.isArray = array := by rw [fresh.isArray_eq, split]
  have named : t.isInline = false := by simp [isInline, TypeName.isInline, reference]
  refine ⟨?_, isArray, named⟩
  simp [base?, fresh.unresolved, needsLookup, named, baseName, declared]

end TypeNode

namespace Library

variable {l r : Library} {name : String}

/-- What a name leads to in a resolved library stands in its own for types that say no more than the
name: they take the same values exactly if it is plain, and so do the items of arrays. -/
theorem accepts_iff_of_name (ok : l.resolve = .ok r) {p : Place} (found : l.place? name = some p)
    (reference : TypeName.isReference name = true) (bare : (TypeName.splitArray name).2 = false)
    (declared : (Kind.ofName name).isBuiltIn = false)
    : ∃ t, p.Holds t ∧ ∀ one many : TypeNode,
        one.Fresh → one.typeName = name → one.object.isEmpty = true
        → many.Fresh → many.typeName = name ++ "[]" → many.object.isEmpty = true
        → ∃ one' many', one.fill r = .ok one' ∧ many.fill r = .ok many'
          ∧ ((∀ o v, one'.Accepts o v ↔ t.Accepts o v) ↔ t.Plain)
          ∧ ((∀ o vs, many'.Accepts o (.array vs) ↔ ∀ v ∈ vs, t.Accepts o v) ↔ t.Plain) := by
  obtain ⟨t, leads, holds⟩ := holds_of_place? ok found
  refine ⟨t, holds, fun one many fresh named empty fresh' named' empty' => ?_⟩
  have split : TypeName.splitArray one.typeName = (name, false) :=
    (congrArg _ named).trans (TypeName.splitArray_eq_self bare)
  have split' : TypeName.splitArray many.typeName = (name, true) :=
    (congrArg _ named').trans (TypeName.splitArray_brackets name)
  have reference' : TypeName.isReference (name ++ "[]") = true :=
    (TypeName.isReference_brackets bare).trans reference
  obtain ⟨base?, noArray, outside⟩ :=
    fresh.base?_of_isReference split (named ▸ reference) declared
  obtain ⟨base?', array, outside'⟩ :=
    fresh'.base?_of_isReference split' (named' ▸ reference') declared
  obtain ⟨one', filled, inline₁, array₁, kind₁, properties₁⟩ :=
    TypeNode.fill_of_bare fresh empty base? leads
  obtain ⟨many', filled', inline₂, array₂, kind₂, properties₂⟩ :=
    TypeNode.fill_of_bare fresh' empty' base?' leads
  refine ⟨one', many', filled, filled', ?_, ?_⟩
  · have items (o : CheckOptions) (v : Value) : one'.Accepts o v ↔ one'.AcceptsItem o v :=
      TypeNode.accepts_iff_of_not_array (array₁.trans noArray)
    simp only [items]
    exact TypeNode.acceptsItem_iff_accepts_iff kind₁ properties₁ (inline₁.trans outside)
  · rw [TypeNode.forall_array_iff (array₂.trans array)]
    exact TypeNode.acceptsItem_iff_accepts_iff kind₂ properties₂ (inline₂.trans outside')

/-- Tags, lists and choices of tags, and two names that lead elsewhere: brackets at the end make an
array, and a point leads to a library in use. -/
def tags : Library :=
  { empty with
    types := [
      ("tag", .ofName "string"), ("tags", .ofName "tag[]"), ("choice", .ofName "tag | tags"),
      ("tag[]", .ofName "string"), ("numbered.tag", .ofName "string")]
    uses := [("numbered", .loaded { empty with types := [("tag", .ofName "integer")] })] }

/-- A tag is a plain type, so its name takes what it takes, and a list of it takes lists of that. -/
theorem tag_accepts_iff
    : ∃ r t one many, tags.resolve = .ok r ∧ Keyed.get? r.types "tag" = some t
        ∧ (TypeNode.ofName "tag").fill r = .ok one ∧ (TypeNode.ofName "tag[]").fill r = .ok many
        ∧ t.Plain ∧ (∀ o v, one.Accepts o v ↔ t.Accepts o v)
        ∧ ∀ o vs, many.Accepts o (.array vs) ↔ ∀ v ∈ vs, t.Accepts o v := by
  have plain : (tags.resolve.toOption.bind fun r => (Keyed.get? r.types "tag").map fun t =>
      !t.isArray && !t.isInline) = some true := by
    decide +kernel
  obtain ⟨r, ok, plain⟩ := Option.bind_eq_some_iff.mp plain
  obtain ⟨t, entry, plain⟩ := Option.map_eq_some_iff.mp plain
  have plain : t.Plain := by
    simp only [Bool.and_eq_true, Bool.not_eq_true'] at plain
    exact ⟨plain.1, fun inPlace => nomatch plain.2.symm.trans inPlace⟩
  have ok := ok_of_toOption ok
  have found : tags.place? "tag" = some ⟨tags, "tag", .ofName "string"⟩ :=
    (place?_of_unqualified tags (by rfl)).trans rfl
  obtain ⟨t', ⟨r', ok', entry'⟩, same⟩ :=
    accepts_iff_of_name ok found (by rfl) (by rfl) (by rfl)
  cases ok.symm.trans ok'
  cases entry.symm.trans entry'
  obtain ⟨one, many, filled, filled', takes, takes'⟩ := same (.ofName "tag") (.ofName "tag[]")
    (TypeNode.fresh_ofName _) rfl rfl (TypeNode.fresh_ofName _) rfl rfl
  exact ⟨r, t, one, many, ok, entry, filled, filled', plain, takes.mpr plain, takes'.mpr plain⟩

/-- What is declared under a name takes a value that the name alone does not take. -/
def TakesMore (r : Library) (name : String) (v : Value) : Prop :=
  TypeName.isReference name = true ∧ (Kind.ofName name).isBuiltIn = false
    ∧ ∃ t one, Keyed.get? r.types name = some t ∧ (TypeNode.ofName name).fill r = .ok one
      ∧ t.Accepts {} v ∧ ¬one.Accepts {} v

/-- Whether a value is taken by what is declared under a name, and by the name alone. -/
def verdicts (r : Library) (name : String) (v : Value) : Option (Bool × Bool) := do
  let t ← Keyed.get? r.types name
  let one ← ((TypeNode.ofName name).fill r).toOption
  return ((t.check v {}).toOption.isSome, (one.check v {}).toOption.isSome)

/-- Two verdicts that differ are computed, and tell that the declared type takes more. -/
theorem takesMore_of_verdicts {v : Value} (reference : TypeName.isReference name = true)
    (declared : (Kind.ofName name).isBuiltIn = false) (h : r.verdicts name v = some (true, false))
    : r.TakesMore name v := by
  obtain ⟨t, entry, h⟩ := Option.bind_eq_some_iff.mp h
  obtain ⟨one, filled, h⟩ := Option.bind_eq_some_iff.mp h
  obtain ⟨taken, refused⟩ := Prod.mk.inj (Option.some.inj h)
  obtain ⟨_, taken⟩ := Option.isSome_iff_exists.mp taken
  refine ⟨reference, declared, t, one, entry, ok_of_toOption filled, ok_of_toOption taken, ?_⟩
  intro accepted
  rw [show one.check v {} = .ok () from accepted] at refused
  cases refused

/-- Names do not always stand for what is declared under them: not for arrays and types written in
place, and not where they lead elsewhere. -/
theorem tags_takesMore
    : ∃ r, tags.resolve = .ok r
        ∧ r.TakesMore "tags" (.array []) ∧ r.TakesMore "choice" (.boolean true)
        ∧ r.TakesMore "tag[]" (.string "a") ∧ r.TakesMore "numbered.tag" (.string "a") := by
  have all : (tags.resolve.toOption.map fun r =>
      [r.verdicts "tags" (.array []), r.verdicts "choice" (.boolean true),
        r.verdicts "tag[]" (.string "a"), r.verdicts "numbered.tag" (.string "a")])
      = some [some (true, false), some (true, false), some (true, false), some (true, false)] := by
    decide +kernel
  obtain ⟨r, ok, all⟩ := Option.map_eq_some_iff.mp all
  simp only [List.cons.injEq, and_true] at all
  obtain ⟨array, inPlace, brackets, point⟩ := all
  exact ⟨r, ok_of_toOption ok,
    takesMore_of_verdicts (by rfl) (by rfl) array,
    takesMore_of_verdicts (by rfl) (by rfl) inPlace,
    takesMore_of_verdicts (by rfl) (by rfl) brackets,
    takesMore_of_verdicts (by rfl) (by rfl) point⟩

end Library

end Raml
