import Mathlib.Tactic.ByContra
import Raml.Proofs.Checking.Acceptance
import Raml.Proofs.Documents.Spots
import Raml.Proofs.Examples.Derivation

/-! When the value that a type derives is one of its values.

What is taken from a base or collected from examples of the type is checked before it is taken. What
a type's own examples say is taken as it is, and so is the object made of the values of properties.
What can be wrong with these is said by `Flawed`, which follows the derivation into the properties
of objects that are made: a value there may be refused by its own type, be empty where the property
is required, or be in an object for a type that takes none.
-/

namespace Raml

/-- Properties are named by their keys, and no key stands twice. -/
def Demands.named : Demands where
  ofExample _ _ := True
  ofProperties ps := (Keyed.keys ps).Nodup ∧ ∀ key p, (key, p) ∈ ps → p.name = key

-----------------------------------------------------------------------------------------
-- Lists and objects as values
-----------------------------------------------------------------------------------------

namespace TypeNode

variable {o : CheckOptions} {t : TypeNode} {v : Value}

/-- A value as a value of the type, if it is one of an item. -/
def asItem (t : TypeNode) (v : Value) : Value := if t.isArray then .array [v] else v

/-- A list of one item is accepted if the item is. -/
theorem accepts_asItem_iff : t.Accepts o (t.asItem v) ↔ t.AcceptsItem o v := by
  unfold asItem
  cases array : t.isArray with
  | false => exact accepts_iff_of_not_array array
  | true => simp [accepts_array_iff array]

end TypeNode

/-- Whether objects are values of a kind, also of one that is not known. -/
def Kind.takesObjects : Kind → Bool
  | .object | .custom _ | .any | .file => true
  | _ => false

/-- Kinds with properties take objects. -/
theorem Kind.takesObjects_of_hasProperties {kind : Kind} (h : kind.hasProperties = true)
    : kind.takesObjects = true := by
  cases kind <;> simp_all [hasProperties, takesObjects]

/-- For a type without properties only its kind counts. -/
theorem TypeNode.acceptsItem_object_of_scalar {o : CheckOptions} {t : TypeNode}
    (scalar : t.kind.hasProperties = false) (members : List (String × Value))
    : t.AcceptsItem o (.object members) ↔ t.kind.takesObjects = true := by
  rw [acceptsItem_iff_scalar scalar]
  unfold Check.scalar
  cases kind : t.kind <;> simp_all [Kind.hasProperties, Kind.takesObjects]

-----------------------------------------------------------------------------------------
-- Where derived values come from
-----------------------------------------------------------------------------------------

namespace Derivation

variable {load : Include} {bases : Bases} {t : TypeNode} {v : Value} {pos : Position}

/-- To fit is to conform under default options. -/
theorem fits_iff : fits t v = true ↔ t.Accepts {} v := by
  unfold fits TypeNode.Accepts
  cases t.check v {} <;> simp [Except.toOption]

/-- The type itself, or that of its items. -/
def singleType (t : TypeNode) : TypeNode := if t.isArray then itemType t else t

/-- The type of items takes what the list of one item is taken for. -/
theorem accepts_singleType_iff {o : CheckOptions}
    : (singleType t).Accepts o v ↔ t.Accepts o (t.asItem v) := by
  rw [TypeNode.accepts_asItem_iff]
  unfold singleType
  cases array : t.isArray with
  | false => exact TypeNode.accepts_iff_of_not_array array
  | true =>
      rw [if_pos rfl, TypeNode.accepts_iff_of_not_array rfl]
      exact TypeNode.acceptsItem_congr rfl rfl fun _ => rfl

/-- A type derives the object with these members: neither its own examples nor its base offer any
value. -/
structure Made (load : Include) (bases : Bases) (t : TypeNode) (ms : List (String × Value))
    : Prop where
  own : firstValue load t.kind t.allExamples = .ok none
  collected : t.isArray = true → collected load bases t = .ok none
  base : fromBase bases (singleType t) = .ok none
  members : t.properties.isEmpty = false ∧ members load bases t.properties = .ok (some ms)

/-- What a base offers has been checked. -/
theorem accepts_of_fromBase {u : TypeNode} (h : fromBase bases u = .ok (some v))
    : u.Accepts {} v := by
  unfold fromBase at h
  split at h
  · cases h
  · obtain ⟨_, -, filtered⟩ := bind_eq_ok_iff.mp h
    exact fits_iff.mp (Option.filter_eq_some_iff.mp (Except.ok.inj filtered)).2

/-- What the examples of a base make together has been checked. -/
theorem accepts_of_collected (h : Derivation.collected load bases t = .ok (some v))
    : t.Accepts {} v := by
  unfold Derivation.collected at h
  split at h
  · cases h
  · obtain ⟨vs, -, rest⟩ := bind_eq_ok_iff.mp h
    cases vs with
    | nil => cases rest
    | cons w vs => exact fits_iff.mp (Option.filter_eq_some_iff.mp (Except.ok.inj rest)).2

/-- An object that is made has properties and a value for each member. -/
theorem object_eq_some (h : object load bases t = .ok (some v))
    : t.properties.isEmpty = false
      ∧ ∃ ms, Derivation.members load bases t.properties = .ok (some ms) ∧ v = .object ms := by
  unfold object at h
  cases empty : t.properties.isEmpty with
  | true =>
      simp only [empty, if_true] at h
      cases h
  | false =>
      simp only [empty, Bool.false_eq_true, if_false] at h
      obtain ⟨ms?, found, rest⟩ := bind_eq_ok_iff.mp h
      obtain ⟨ms, rfl, rfl⟩ := Option.map_eq_some_iff.mp (Except.ok.inj rest)
      exact ⟨rfl, ms, found, rfl⟩

/-- What comes of a single type is offered by its base, or it is an object. -/
theorem plain_eq_some {u : TypeNode} {object : Unit → Except Error (Option Value)}
    (h : plain bases u object = .ok (some v))
    : fromBase bases u = .ok (some v)
      ∨ fromBase bases u = .ok none ∧ object () = .ok (some v) := by
  obtain ⟨v?, found, rest⟩ := bind_eq_ok_iff.mp h
  cases v? with
  | some w =>
      cases rest
      exact Or.inl found
  | none => exact Or.inr ⟨found, rest⟩

/-- For the type itself or for its items, a base offers a value that is accepted, or the object is
taken that the type makes. -/
theorem plain_cases (own : firstValue load t.kind t.allExamples = .ok none)
    (gathered : t.isArray = true → collected load bases t = .ok none)
    (h : plain bases (singleType t) (fun _ => object load bases t) = .ok (some v))
    : (t.Accepts {} (t.asItem v) ∧ ∀ ms, ¬Made load bases t ms)
      ∨ ∃ ms, Made load bases t ms ∧ v = .object ms := by
  rcases plain_eq_some h with based | ⟨unbased, made⟩
  · refine Or.inl ⟨accepts_singleType_iff.mp (accepts_of_fromBase based), fun ms made => ?_⟩
    cases made.base.symm.trans based
  · obtain ⟨properties, ms, members, rfl⟩ := object_eq_some made
    exact Or.inr ⟨ms, ⟨own, gathered, unbased, properties, members⟩, rfl⟩

/-- Without a value of its own, a type takes one that it accepts, or the object that it makes. -/
theorem fallback_cases (own : firstValue load t.kind t.allExamples = .ok none)
    (h : fallback load bases t = .ok (some v))
    : (t.Accepts {} v ∧ ∀ ms, ¬Made load bases t ms)
      ∨ ∃ ms, Made load bases t ms ∧ v = t.asItem (.object ms) := by
  unfold fallback at h
  cases array : t.isArray with
  | false =>
      have single : singleType t = t := by simp [singleType, array]
      have same (x : Value) : t.asItem x = x := by simp [TypeNode.asItem, array]
      simp only [array, Bool.false_eq_true, if_false] at h
      have derived : plain bases (singleType t) (fun _ => object load bases t) = .ok (some v) := by
        rw [single]
        exact h
      simpa only [same] using plain_cases own (by simp [array]) derived
  | true =>
      have single : singleType t = itemType t := by simp [singleType, array]
      have listed (x : Value) : t.asItem x = .array [x] := by simp [TypeNode.asItem, array]
      simp only [array, if_true] at h
      obtain ⟨v?, gathered, rest⟩ := bind_eq_ok_iff.mp h
      cases v? with
      | some w =>
          cases rest
          refine Or.inl ⟨accepts_of_collected gathered, fun ms made => ?_⟩
          cases (made.collected array).symm.trans gathered
      | none =>
          obtain ⟨x?, derived, wrapped⟩ := bind_eq_ok_iff.mp rest
          obtain ⟨x, rfl, rfl⟩ := Option.map_eq_some_iff.mp (Except.ok.inj wrapped)
          rw [← single] at derived
          rw [← listed]
          refine (plain_cases own (fun _ => gathered) derived).imp_right ?_
          rintro ⟨ms, made, rfl⟩
          exact ⟨ms, made, rfl⟩

/-- A value is one of the type's own, or one that it accepts, or the object that it makes. -/
theorem value_cases (h : value load bases t = .ok (some v))
    : firstValue load t.kind t.allExamples = .ok (some v)
      ∨ (t.Accepts {} v ∧ firstValue load t.kind t.allExamples = .ok none
        ∧ ∀ ms, ¬Made load bases t ms)
      ∨ ∃ ms, Made load bases t ms ∧ v = t.asItem (.object ms) := by
  rw [value_eq] at h
  obtain ⟨v?, own, rest⟩ := bind_eq_ok_iff.mp h
  cases v? with
  | some w =>
      cases rest
      exact Or.inl own
  | none =>
      rcases fallback_cases own rest with ⟨accepted, unmade⟩ | made
      · exact Or.inr (Or.inl ⟨accepted, own, unmade⟩)
      · exact Or.inr (Or.inr made)

-----------------------------------------------------------------------------------------
-- Members of objects
-----------------------------------------------------------------------------------------

/-- The members of an object that is made are the values of its properties, and no required property
is without one. -/
theorem members_spec {properties : Properties} (unique : (Keyed.keys properties).Nodup)
    {ms : List (String × Value)} (h : members load bases properties = .ok (some ms))
    : (∀ key ∈ Keyed.keys ms, key ∈ Keyed.keys properties)
      ∧ ∀ key p, (key, p) ∈ properties → value load bases p.type = .ok (Keyed.get? ms key)
        ∧ (p.required = true → (Keyed.get? ms key).isSome) := by
  induction properties generalizing ms with
  | nil =>
      cases h
      exact ⟨nofun, nofun⟩
  | cons entry properties ih =>
      obtain ⟨key, p⟩ := entry
      obtain ⟨absent, unique⟩ := List.nodup_cons.mp unique
      rw [members_cons] at h
      obtain ⟨v?, derived, rest⟩ := bind_eq_ok_iff.mp h
      cases v? with
      | none =>
          have optional : p.required = false := by
            by_contra required
            simp only [Bool.not_eq_false] at required
            simp only [required, if_true] at rest
            cases rest
          simp only [optional, Bool.false_eq_true, if_false] at rest
          obtain ⟨known, each⟩ := ih unique rest
          have missing : Keyed.get? ms key = none :=
            Keyed.get?_eq_none_iff.mpr fun member => absent (known key member)
          refine ⟨fun other member => List.mem_cons_of_mem _ (known other member), ?_⟩
          intro other q member
          rcases List.mem_cons.mp member with same | later
          · cases same
            rw [missing]
            exact ⟨derived, fun required => nomatch optional.symm.trans required⟩
          · exact each other q later
      | some v =>
          obtain ⟨ms?, others, same⟩ := map_eq_ok_iff.mp rest
          obtain ⟨ms, rfl, rfl⟩ := Option.map_eq_some_iff.mp same
          obtain ⟨known, each⟩ := ih unique others
          refine ⟨fun other member => ?_, fun other q member => ?_⟩
          · rcases List.mem_cons.mp member with rfl | later
            · exact List.mem_cons_self
            · exact List.mem_cons_of_mem _ (known other later)
          · rcases List.mem_cons.mp member with same | later
            · cases same
              simp [derived]
            · have distinct : key ≠ other := by
                rintro rfl
                exact absent (List.mem_map.mpr ⟨_, later, rfl⟩)
              simpa [distinct] using each other q later

-----------------------------------------------------------------------------------------
-- Flaws
-----------------------------------------------------------------------------------------

/-- What keeps the value that a type derives from being one of its values: an example that does not
have to conform and does not, an object for a type that takes none, or a value in an object that is
made, be it empty where it must not be or flawed itself. -/
inductive Flawed (load : Include) (bases : Bases) : TypeNode → Prop where
  | loose {t : TypeNode} {e : Example} {v : Value} (member : e ∈ t.allExamples)
      (strict : e.strict = false) (read : e.valueOf? load t.kind = .ok (some v))
      (first : firstValue load t.kind t.allExamples = .ok (some v)) (refused : ¬t.Accepts {} v)
      : Flawed load bases t
  | kind {t : TypeNode} {ms : List (String × Value)} (made : Made load bases t ms)
      (takes : t.kind.takesObjects = false) : Flawed load bases t
  | empty {t : TypeNode} {ms : List (String × Value)} {key : String} {p : Property} {v : Value}
      (made : Made load bases t ms) (checked : t.kind.hasProperties = true)
      (named : t.isInline = false) (member : (key, p) ∈ t.properties)
      (required : p.required = true) (derives : value load bases p.type = .ok (some v))
      (isEmpty : v.isEmpty = true) : Flawed load bases t
  | property {t : TypeNode} {ms : List (String × Value)} {key : String} {p : Property} {v : Value}
      (made : Made load bases t ms) (checked : t.kind.hasProperties = true)
      (named : t.isInline = false) (member : (key, p) ∈ t.properties)
      (derives : value load bases p.type = .ok (some v))
      (counts : p.required = true ∨ v.isZero = false) (flawed : Flawed load bases p.type)
      : Flawed load bases t

/-- An object that is made is refused for what is wrong with one of its members. -/
theorem acceptsItem_made_iff {ms : List (String × Value)} (made : Made load bases t ms)
    (unique : (Keyed.keys t.properties).Nodup)
    (names : ∀ key p, (key, p) ∈ t.properties → p.name = key)
    (checked : t.kind.hasProperties = true) (named : t.isInline = false)
    : t.AcceptsItem {} (.object ms)
      ↔ ∀ key p v, (key, p) ∈ t.properties → value load bases p.type = .ok (some v)
        → (p.required = true → v.isEmpty = false)
          ∧ (p.required = true ∨ v.isZero = false → p.type.Accepts {} v) := by
  obtain ⟨-, each⟩ := members_spec unique made.members.2
  rw [TypeNode.acceptsItem_object_iff checked named]
  refine forall₂_congr fun key p => ?_
  constructor
  · intro conforms v member derives
    obtain ⟨present, accepted⟩ := conforms member
    obtain ⟨derived, -⟩ := each key p member
    have found : Keyed.get? ms p.name = some v := by
      rw [names key p member]
      exact Except.ok.inj (derived.symm.trans derives)
    refine ⟨fun required => ?_, fun counts => ?_⟩
    · obtain ⟨w, there, full⟩ := present required fun _ => rfl
      cases found.symm.trans there
      simpa using full
    · rcases accepted v found with ⟨optional, zero⟩ | ok
      · simp [optional, zero] at counts
      · exact ok
  · intro conforms member
    obtain ⟨derived, always⟩ := each key p member
    rw [← names key p member] at derived always
    refine ⟨fun required _ => ?_, fun v found => ?_⟩
    · obtain ⟨v, found⟩ := Option.isSome_iff_exists.mp (always required)
      exact ⟨v, found, Or.inr ((conforms v member (found ▸ derived)).1 required)⟩
    · by_cases counts : p.required = true ∨ v.isZero = false
      · exact Or.inr ((conforms v member (found ▸ derived)).2 counts)
      · refine Or.inl ?_
        simpa using counts

/-- The first value is that of an example. -/
theorem mem_of_firstValue {kind : Kind} {es : List Example}
    (h : firstValue load kind es = .ok (some v))
    : ∃ e ∈ es, e.valueOf? load kind = .ok (some v) := by
  induction es with
  | nil => cases h
  | cons e es ih =>
      obtain ⟨v?, read, rest⟩ := bind_eq_ok_iff.mp h
      cases v? with
      | some w =>
          cases rest
          exact ⟨e, List.mem_cons_self, read⟩
      | none =>
          obtain ⟨e', later, read'⟩ := ih rest
          exact ⟨e', List.mem_cons_of_mem _ later, read'⟩

/-- All strict examples of the type, and of the types in it, are values of their types. -/
def Exemplary (load : Include) (t : TypeNode) : Prop :=
  ∀ u : TypeNode, u.Within t → ∀ e ∈ u.allExamples, e.strict = true
    → ∀ v, e.valueOf? load u.kind = .ok (some v) → u.Accepts {} v

/-- A value of the type's own is flawed only if it does not have to conform and does not. -/
theorem flawed_of_own_iff (exemplary : Exemplary load t)
    (own : firstValue load t.kind t.allExamples = .ok (some v))
    : Flawed load bases t ↔ ¬t.Accepts {} v := by
  constructor
  · intro flawed
    cases flawed with
    | loose _ _ _ first refused =>
        cases own.symm.trans first
        exact refused
    | kind made => cases made.own.symm.trans own
    | empty made => cases made.own.symm.trans own
    | property made => cases made.own.symm.trans own
  · intro refused
    obtain ⟨e, member, read⟩ := mem_of_firstValue own
    cases strict : e.strict with
    | true => exact absurd (exemplary t (.self t) e member strict v read) refused
    | false => exact .loose member strict read own refused

/-- Without a value of its own and without an object there is nothing to be flawed. -/
theorem not_flawed_of_unmade (own : firstValue load t.kind t.allExamples = .ok none)
    (unmade : ∀ ms, ¬Made load bases t ms)
    : ¬Flawed load bases t := by
  intro flawed
  cases flawed with
  | loose _ _ _ first => cases own.symm.trans first
  | kind made => exact unmade _ made
  | empty made => exact unmade _ made
  | property made => exact unmade _ made

/-- What is wrong with an object that is made: its type takes none, or one of its members is empty
where it must not be or flawed itself. -/
theorem flawed_iff_of_made {ms : List (String × Value)} (made : Made load bases t ms)
    : Flawed load bases t ↔ t.kind.takesObjects = false
        ∨ t.kind.hasProperties = true ∧ t.isInline = false
          ∧ ∃ key p v, (key, p) ∈ t.properties ∧ value load bases p.type = .ok (some v)
            ∧ (p.required = true ∧ v.isEmpty = true
              ∨ (p.required = true ∨ v.isZero = false) ∧ Flawed load bases p.type) := by
  constructor
  · intro flawed
    cases flawed with
    | loose _ _ _ first => cases made.own.symm.trans first
    | kind _ refuses => exact Or.inl refuses
    | empty _ checked named member required derives isEmpty =>
        exact Or.inr ⟨checked, named, _, _, _, member, derives, Or.inl ⟨required, isEmpty⟩⟩
    | property _ checked named member derives counts flawed =>
        exact Or.inr ⟨checked, named, _, _, _, member, derives, Or.inr ⟨counts, flawed⟩⟩
  · rintro (refuses | ⟨checked, named, key, p, v, member, derives, wrong⟩)
    · exact .kind made refuses
    · rcases wrong with ⟨required, isEmpty⟩ | ⟨counts, flawed⟩
      · exact .empty made checked named member required derives isEmpty
      · exact .property made checked named member derives counts flawed

/-- An object that is made is a value of its type unless it is flawed, if that is so for the values
of the properties. -/
theorem acceptsItem_made_iff_not_flawed {ms : List (String × Value)} (made : Made load bases t ms)
    (unique : (Keyed.keys t.properties).Nodup)
    (names : ∀ key p, (key, p) ∈ t.properties → p.name = key)
    (each : ∀ key p v, (key, p) ∈ t.properties → value load bases p.type = .ok (some v)
      → (p.type.Accepts {} v ↔ ¬Flawed load bases p.type))
    : t.AcceptsItem {} (.object ms) ↔ ¬Flawed load bases t := by
  rw [flawed_iff_of_made made]
  cases checked : t.kind.hasProperties with
  | false => simp [TypeNode.acceptsItem_object_of_scalar checked]
  | true =>
      have takes : t.kind.takesObjects = true := Kind.takesObjects_of_hasProperties checked
      cases named : t.isInline with
      | true => simp [TypeNode.acceptsItem_of_inline checked named, takes]
      | false =>
          rw [acceptsItem_made_iff made unique names checked named]
          constructor
          · rintro conforms (refuses | ⟨-, -, key, p, v, member, derives, wrong⟩)
            · cases takes.symm.trans refuses
            · obtain ⟨full, accepted⟩ := conforms key p v member derives
              rcases wrong with ⟨required, isEmpty⟩ | ⟨counts, flawed⟩
              · cases isEmpty.symm.trans (full required)
              · exact (each key p v member derives).mp (accepted counts) flawed
          · intro sound key p v member derives
            refine ⟨fun required => ?_, fun counts => (each key p v member derives).mpr ?_⟩
            · by_contra isEmpty
              have empty : v.isEmpty = true := by simpa using isEmpty
              exact sound (Or.inr ⟨rfl, rfl, key, p, v, member, derives, Or.inl ⟨required, empty⟩⟩)
            · intro flawed
              exact sound (Or.inr ⟨rfl, rfl, key, p, v, member, derives, Or.inr ⟨counts, flawed⟩⟩)

/-- A derived value is a value of its type unless it is flawed. -/
theorem accepts_iff_not_flawed (named : t.Meets .named pos) (exemplary : Exemplary load t)
    (h : value load bases t = .ok (some v))
    : t.Accepts {} v ↔ ¬Flawed load bases t := by
  induction t using TypeNode.induct generalizing pos v with
  | step t ih =>
      -- Only the object has not been checked, and that comes down to the values in it.
      rcases value_cases h with own | ⟨accepted, own, unmade⟩ | ⟨ms, made, rfl⟩
      · rw [flawed_of_own_iff exemplary own, not_not]
      · exact iff_of_true accepted (not_flawed_of_unmade own unmade)
      · obtain ⟨-, ⟨unique, names⟩, inside⟩ := named
        rw [TypeNode.accepts_asItem_iff]
        refine acceptsItem_made_iff_not_flawed made unique names fun key p v member derives => ?_
        exact ih key p member (inside key p member)
          (fun u within => exemplary u (.property member within)) derives

end Derivation

end Raml
