import Raml.Proofs.Checking.Conforming

/-! What the errors of checks tell.

A check goes through lists and objects in order and fails at the first place that does not conform.
The error names that place by what holds it: nothing is named for the value itself, the index for an
item of the value, and the property for what is deeper.
-/

namespace Raml

-----------------------------------------------------------------------------------------
-- Places
-----------------------------------------------------------------------------------------

/-- What a value gives for the properties of a type: its members, or none at all. -/
inductive Value.Gives : Value → Option (List (String × Value)) → Prop
  | object (members : List (String × Value)) : Gives (.object members) (some members)
  | null : Gives .null none

/-- The property is in order: it is there as far as it has to be, and its value is accepted. -/
structure Property.Passes (o : CheckOptions) (members : Option (List (String × Value)))
    (p : Property)
    : Prop where
  present : Check.Present o p members
  accepts
    : ∀ v, members.bind (Keyed.get? · p.name) = some v
        → p.required = false ∧ v.isZero = true ∨ p.type.Accepts o v

/-- The property is there with a value that has to conform. -/
structure Property.Judges (o : CheckOptions) (members : Option (List (String × Value)))
    (p : Property) (v : Value)
    : Prop where
  present : Check.Present o p members
  found : members.bind (Keyed.get? · p.name) = some v
  counts : ¬(p.required = false ∧ v.isZero = true)

namespace TypeNode

/-- The value itself is of the right kind, whatever is inside it. -/
inductive Suits (o : CheckOptions) : TypeNode → Value → Prop
  | array {t : TypeNode} (isArray : t.isArray = true) (vs : List Value) : Suits o t (.array vs)
  | nullAsArray {t : TypeNode} (isArray : t.isArray = true) (may : o.nullAsArray = true)
    : Suits o t .null
  | ofKind {t : TypeNode} {v : Value} (single : t.isArray = false)
    (takes : t.kind.Takes o (fun x => Value.isWhole x = true) v)
    : Suits o t v
  | inPlace {t : TypeNode} (v : Value) (single : t.isArray = false)
    (kind : t.kind.hasProperties = true) (inPlace : t.isInline = true)
    : Suits o t v
  | members {t : TypeNode} {v : Value} {members : Option (List (String × Value))}
    (judged : t.HasMembers) (gives : v.Gives members)
    : Suits o t v

/-- The value is a list of `before`, the item `w` and more, and `before` is accepted. -/
structure ReachesItem (o : CheckOptions) (t : TypeNode) (v : Value) (before : List Value)
    (w : Value)
    : Prop where
  isArray : t.isArray = true
  split : ∃ after, v = .array (before ++ w :: after)
  earlier : ∀ item ∈ before, t.item.Accepts o item

/-- The properties are some that pass, then `p`, then more; the value gives `members` for them. -/
structure ReachesProperty (o : CheckOptions) (t : TypeNode) (v : Value)
    (members : Option (List (String × Value))) (p : Property)
    : Prop where
  judged : t.HasMembers
  gives : v.Gives members
  split
    : ∃ before key after, t.properties = before ++ (key, p) :: after
        ∧ ∀ entry ∈ before, entry.2.Passes o members

/-- Inside the value that is checked against `t`, there is `x` that is checked against `u`, and all
that is checked before it is accepted. -/
inductive Leads (o : CheckOptions) : TypeNode → Value → TypeNode → Value → Prop
  | here (t : TypeNode) (v : Value) : Leads o t v t v
  | item {t u : TypeNode} {v w x : Value} {before : List Value}
    (reached : t.ReachesItem o v before w) (next : Leads o t.item w u x)
    : Leads o t v u x
  | property {t u : TypeNode} {v w x : Value} {members : Option (List (String × Value))}
    {p : Property} (reached : t.ReachesProperty o v members p) (judges : p.Judges o members w)
    (next : Leads o p.type w u x)
    : Leads o t v u x

-----------------------------------------------------------------------------------------
-- Blame
-----------------------------------------------------------------------------------------

/-- The error tells that an item of the value is itself of the wrong kind, the earlier ones being
accepted. -/
inductive BlamesItem (o : CheckOptions) (t : TypeNode) (v : Value) : Error → Prop
  | mk {before : List Value} {w : Value} (reached : t.ReachesItem o v before w)
    (wrong : ¬t.item.Suits o w)
    : BlamesItem o t v (.elementMismatch before.length t.baseName w.kind)

/-- The error tells of the first place that does not conform. -/
inductive Blames (o : CheckOptions) (t : TypeNode) (v : Value) : Error → Prop
  | kind (wrong : ¬t.Suits o v) : Blames o t v (.typeMismatch none t.typeName v.kind)
  | item {e : Error} (blames : t.BlamesItem o v e) : Blames o t v e
  | missing {u : TypeNode} {x : Value} {members : Option (List (String × Value))} {p : Property}
    (leads : t.Leads o v u x) (reached : u.ReachesProperty o x members p)
    (missing : ¬Check.Present o p members)
    : Blames o t v (.requiredProperty p.name u.typeName)
  | property {u : TypeNode} {x w : Value} {members : Option (List (String × Value))}
    {p : Property} (leads : t.Leads o v u x) (reached : u.ReachesProperty o x members p)
    (judges : p.Judges o members w) (wrong : ¬p.type.Suits o w)
    : Blames o t v (.typeMismatch (some p.name) p.type.typeName w.kind)
  | propertyItem {u : TypeNode} {x w : Value} {members : Option (List (String × Value))}
    {p : Property} {cause : Error} (leads : t.Leads o v u x)
    (reached : u.ReachesProperty o x members p) (judges : p.Judges o members w)
    (blames : p.type.BlamesItem o w cause)
    : Blames o t v (.propertyMismatch p.name cause)

end TypeNode

-----------------------------------------------------------------------------------------
-- The failure of each check
-----------------------------------------------------------------------------------------

namespace Check

variable {o : CheckOptions} {t owner : TypeNode} {v : Value}
variable {members : Option (List (String × Value))} {e : Error}

/-- What the mismatch of an item means for the list. -/
def ofItem (t : TypeNode) (index : Nat) (v : Value) : Error → Error
  | .typeMismatch none _ _ => .elementMismatch index t.baseName v.kind
  | e => e

theorem items_cons (check : Value → Except Error Unit) (index : Nat) (v : Value) (vs : List Value)
    : items t check index (v :: vs)
      = match check v with
        | .ok () => items t check (index + 1) vs
        | .error e => .error (ofItem t index v e) := by
  rw [items]
  cases check v with
  | ok => rfl
  | error e =>
      cases e with
      | typeMismatch property => cases property <;> rfl
      | _ => rfl

/-- A list fails for its first item that fails. -/
theorem items_error_iff {check : Value → Except Error Unit} {index : Nat} {vs : List Value}
    : items t check index vs = .error e
      ↔ ∃ before w after cause, vs = before ++ w :: after ∧ (∀ v ∈ before, check v = .ok ())
        ∧ check w = .error cause ∧ e = ofItem t (index + before.length) w cause := by
  induction vs generalizing index with
  | nil => simp [items]
  | cons v vs ih =>
      rw [items_cons]
      constructor
      · intro failed
        cases checked : check v with
        | error cause =>
            rw [checked] at failed
            exact ⟨[], v, vs, cause, rfl, by simp, checked, (Except.error.inj failed).symm⟩
        | ok =>
            rw [checked] at failed
            obtain ⟨before, w, after, cause, rfl, earlier, fails, rfl⟩ := ih.mp failed
            refine ⟨v :: before, w, after, cause, rfl, ?_, fails, ?_⟩
            · exact List.forall_mem_cons.mpr ⟨checked, earlier⟩
            · rw [List.length_cons, Nat.add_assoc, Nat.add_comm 1]
      · rintro ⟨before, w, after, cause, split, earlier, fails, rfl⟩
        cases before with
        | nil =>
            obtain ⟨rfl, rfl⟩ := List.cons.inj split
            rw [fails]
            rfl
        | cons first before =>
            obtain ⟨rfl, rfl⟩ := List.cons.inj split
            obtain ⟨checked, earlier⟩ := List.forall_mem_cons.mp earlier
            rw [checked]
            refine ih.mpr ⟨before, w, after, cause, rfl, earlier, fails, ?_⟩
            rw [List.length_cons, Nat.add_assoc, Nat.add_comm 1]

/-- The only error about what has to be there names the property and its owner. -/
theorem required_error_iff {p : Property}
    : required o owner p members = .error e
      ↔ ¬Present o p members ∧ e = .requiredProperty p.name owner.typeName := by
  have there : required o owner p members = .ok () ↔ Present o p members := required_ok_iff
  rw [← there]
  unfold required
  split
  · simp
  · split
    · split <;> simp [eq_comm]
    · simp [eq_comm]

theorem error_of_unless {ok : Bool}
    (h : (if ok then .ok () else .error e : Except Error Unit) ≠ .ok ())
    : (if ok then .ok () else .error e : Except Error Unit) = .error e := by
  cases ok with
  | true => exact (h rfl).elim
  | false => rfl

/-- A property passes its check exactly if it is in order. -/
theorem passes_iff {p : Property}
    : property o owner members p = .ok () ↔ p.Passes o members :=
  property_ok_iff.trans ⟨fun h => ⟨h.1, h.2⟩, fun h => ⟨h.present, h.accepts⟩⟩

/-- A property is checked for being there first, and its value afterwards, unless it is optional and
left empty. -/
theorem property_eq (o : CheckOptions) (owner : TypeNode)
    (members : Option (List (String × Value))) (p : Property)
    : property o owner members p
      = (do
          required o owner p members
          match members.bind (Keyed.get? · p.name) with
          | none => return ()
          | some v =>
              if !p.required && v.isZero then return ()
              (p.type.check v o).mapError (ofProperty p v)) := by
  obtain ⟨type, isRequired, name⟩ := p
  rw [property]
  congr 1
  funext _
  cases members.bind (Keyed.get? · name) with
  | none => rfl
  | some v =>
      refine if_congr Iff.rfl rfl ?_
      show _ = (type.check v o).mapError _
      unfold TypeNode.check
      generalize (if type.isArray then array o type (single o type) v else single o type v) = result
      cases result <;> rfl

/-- A property fails for not being there, or else for its value. -/
theorem property_error_iff {p : Property}
    : property o owner members p = .error e
      ↔ (¬Present o p members ∧ e = .requiredProperty p.name owner.typeName)
        ∨ ∃ w cause, p.Judges o members w ∧ p.type.check w o = .error cause
          ∧ e = ofProperty p w cause := by
  rw [property_eq, bind_eq_error_iff, required_error_iff]
  refine or_congr Iff.rfl ⟨?_, ?_⟩
  · rintro ⟨⟨⟩, there, failed⟩
    have present : Present o p members := required_ok_iff.mp there
    cases found : members.bind (Keyed.get? · p.name) with
    | none =>
        rw [found] at failed
        cases failed
    | some w =>
        rw [found] at failed
        cases skipped : !p.required && w.isZero with
        | true =>
            simp only [skipped] at failed
            cases failed
        | false =>
            have counts : ¬(p.required = false ∧ w.isZero = true) := by simpa using skipped
            simp only [skipped] at failed
            cases checked : p.type.check w o with
            | ok =>
                rw [checked] at failed
                cases failed
            | error cause =>
                rw [checked] at failed
                exact ⟨w, cause, ⟨present, found, counts⟩, checked, (Except.error.inj failed).symm⟩
  · rintro ⟨w, cause, ⟨present, found, counts⟩, failed, rfl⟩
    have skipped : (!p.required && w.isZero) = false := by simpa using counts
    refine ⟨(), required_ok_iff.mpr present, ?_⟩
    rw [found]
    simp only [skipped, failed]
    rfl

/-- Properties are checked one after the other, in the order of their declaration. -/
theorem checkProperties_eq_forM (properties : Properties)
    : checkProperties o owner properties members
      = properties.forM fun entry => property o owner members entry.2 := by
  induction properties with
  | nil => rfl
  | cons entry properties ih =>
      rw [checkProperties, ih]
      rfl

/-- Properties fail for the first one that fails. -/
theorem checkProperties_error_iff {properties : Properties}
    : checkProperties o owner properties members = .error e
      ↔ ∃ before key p after, properties = before ++ (key, p) :: after
        ∧ (∀ entry ∈ before, entry.2.Passes o members)
        ∧ property o owner members p = .error e := by
  simp only [checkProperties_eq_forM, forM_eq_error_iff, passes_iff, Prod.exists]

end Check

namespace TypeNode

variable {o : CheckOptions} {t u : TypeNode} {v w x : Value} {e cause : Error}
variable {members : Option (List (String × Value))} {p : Property}

-----------------------------------------------------------------------------------------
-- The value itself
-----------------------------------------------------------------------------------------

/-- A check of an array goes through its items. -/
theorem check_of_array (isArray : t.isArray = true)
    : t.check v o = Check.array o t (Check.single o t) v := by
  simp [check, isArray]

/-- A check of anything else is one of a single value. -/
theorem check_of_single (single : t.isArray = false) : t.check v o = Check.single o t v := by
  simp [check, single]

/-- An item of an array is checked as a single value. -/
theorem check_item : t.item.check v o = Check.single o t v :=
  (check_of_single rfl).trans (Check.single_item o t v)

/-- Where members count, the check is that of the properties. -/
theorem HasMembers.check (judged : t.HasMembers) (gives : v.Gives members)
    : t.check v o = Check.checkProperties o t t.properties members := by
  rw [check_of_single judged.single, Check.single_eq, judged.kind, judged.named]
  cases gives <;> rfl

/-- A value that a kind does not take is reported as of the wrong kind. -/
theorem scalar_of_not_takes (wrong : ¬t.kind.Takes o (fun x => Value.isWhole x = true) v)
    : Check.scalar o t v = .error (Check.wrongKind t v) := by
  have refused : Check.scalar o t v ≠ .ok () := mt Check.scalar_ok_iff.mp wrong
  exact Check.error_of_unless refused

/-- A value of the wrong kind is blamed as a whole. -/
theorem check_of_not_suits (wrong : ¬t.Suits o v)
    : t.check v o = .error (.typeMismatch none t.typeName v.kind) := by
  cases isArray : t.isArray with
  | true =>
      rw [check_of_array isArray]
      cases v with
      | array vs => exact (wrong (.array isArray vs)).elim
      | null =>
          have not : o.nullAsArray = false :=
            Bool.not_eq_true _ |>.mp fun may => wrong (.nullAsArray isArray may)
          simp only [Check.array, not]
          rfl
      | _ => rfl
  | false =>
      rw [check_of_single isArray, Check.single_eq]
      cases kind : t.kind.hasProperties with
      | false => exact scalar_of_not_takes fun takes => wrong (.ofKind isArray takes)
      | true =>
          have named : t.isInline = false :=
            Bool.not_eq_true _ |>.mp fun inPlace => wrong (.inPlace v isArray kind inPlace)
          have judged : t.HasMembers := ⟨isArray, kind, named⟩
          rw [named]
          cases v with
          | object members => exact (wrong (.members judged (.object members))).elim
          | null => exact (wrong (.members judged .null)).elim
          | _ => rfl

/-- Where a value of the right kind fails, one of its items or properties does. -/
theorem inside_of_error (suits : t.Suits o v) (failed : t.check v o = .error e)
    : (t.isArray = true ∧ ∃ vs, v = .array vs
        ∧ Check.items t (Check.single o t) 0 vs = .error e)
      ∨ t.HasMembers ∧ ∃ members, v.Gives members
        ∧ Check.checkProperties o t t.properties members = .error e := by
  cases suits with
  | array isArray vs =>
      rw [check_of_array isArray] at failed
      exact Or.inl ⟨isArray, vs, rfl, failed⟩
  | nullAsArray isArray may =>
      rw [check_of_array isArray] at failed
      simp [Check.array, may] at failed
  | ofKind single takes =>
      rw [check_of_single single, Check.single_eq, takes.hasProperties] at failed
      rw [show Check.scalar o t v = .ok () from Check.scalar_ok_iff.mpr takes] at failed
      cases failed
  | inPlace _ single kind inPlace =>
      rw [check_of_single single, Check.single_eq, kind, inPlace] at failed
      cases failed
  | members judged gives =>
      rw [judged.check gives] at failed
      exact Or.inr ⟨judged, _, gives, failed⟩

-----------------------------------------------------------------------------------------
-- Errors blame
-----------------------------------------------------------------------------------------

/-- The blame for an item, as the list tells it. -/
theorem Blames.ofItem {before : List Value} (reached : t.ReachesItem o v before w)
    (blames : t.item.Blames o w cause)
    : t.Blames o v (Check.ofItem t before.length w cause) := by
  cases blames with
  | kind wrong => exact .item ⟨reached, wrong⟩
  | item inside =>
      obtain ⟨nested, -⟩ := inside
      cases nested.isArray
  | missing leads there missing => exact .missing (.item reached leads) there missing
  | property leads there judges wrong => exact .property (.item reached leads) there judges wrong
  | propertyItem leads there judges inside =>
      exact .propertyItem (.item reached leads) there judges inside

/-- What blames an item is passed on under the name of the property. -/
theorem BlamesItem.ofProperty (blames : t.BlamesItem o v e)
    : Check.ofProperty p w e = .propertyMismatch p.name e := by
  cases blames
  rfl

/-- The blame for the value of a property, as the property tells it. -/
theorem Blames.ofProperty (reached : t.ReachesProperty o v members p)
    (judges : p.Judges o members w) (blames : p.type.Blames o w cause)
    : t.Blames o v (Check.ofProperty p w cause) := by
  cases blames with
  | kind wrong => exact .property (.here t v) reached judges wrong
  | item inside =>
      rw [inside.ofProperty]
      exact .propertyItem (.here t v) reached judges inside
  | missing leads there missing => exact .missing (.property reached judges leads) there missing
  | property leads there judged wrong =>
      exact .property (.property reached judges leads) there judged wrong
  | propertyItem leads there judged inside =>
      exact .propertyItem (.property reached judges leads) there judged inside

/-- A type that is no array blames what it should if the types of its properties do. -/
theorem blames_of_error_single
    (types : ∀ key p, (key, p) ∈ t.properties
      → ∀ w cause, p.type.check w o = .error cause → p.type.Blames o w cause)
    (single : t.isArray = false) (failed : t.check v o = .error e)
    : t.Blames o v e := by
  by_cases suits : t.Suits o v
  · obtain ⟨isArray, -⟩ | ⟨judged, members, gives, inside⟩ := inside_of_error suits failed
    · cases single.symm.trans isArray
    · obtain ⟨before, key, p, after, split, earlier, inside⟩ :=
        Check.checkProperties_error_iff.mp inside
      have reached : t.ReachesProperty o v members p :=
        ⟨judged, gives, before, key, after, split, earlier⟩
      obtain ⟨missing, rfl⟩ | ⟨w, cause, judges, mismatch, rfl⟩ :=
        Check.property_error_iff.mp inside
      · exact .missing (.here t v) reached missing
      · have member : (key, p) ∈ t.properties := by simp [split]
        exact .ofProperty reached judges (types key p member w cause mismatch)
  · cases (check_of_not_suits suits).symm.trans failed
    exact .kind suits

/-- Whatever a check fails with tells of the first place that does not conform, by induction on the
type. -/
theorem blames_of_error (failed : t.check v o = .error e) : t.Blames o v e := by
  induction t using TypeNode.induct generalizing v e with
  | step t types =>
      have single {u : TypeNode} (same : u.properties = t.properties) (single : u.isArray = false)
          {v : Value} {e : Error} (failed : u.check v o = .error e)
          : u.Blames o v e := by
        refine blames_of_error_single (fun key p member w cause => ?_) single failed
        exact types key p (same ▸ member)
      cases isArray : t.isArray with
      | false => exact single rfl isArray failed
      | true =>
          by_cases suits : t.Suits o v
          · obtain ⟨-, vs, rfl, inside⟩ | ⟨judged, -⟩ := inside_of_error suits failed
            · obtain ⟨before, w, after, cause, rfl, earlier, mismatch, rfl⟩ :=
                Check.items_error_iff.mp inside
              have reached : t.ReachesItem o (.array (before ++ w :: after)) before w :=
                ⟨isArray, ⟨after, rfl⟩, fun b member => check_item.trans (earlier b member)⟩
              rw [Nat.zero_add]
              exact .ofItem reached (single (u := t.item) rfl rfl (check_item.trans mismatch))
            · cases isArray.symm.trans judged.single
          · cases (check_of_not_suits suits).symm.trans failed
            exact .kind suits

-----------------------------------------------------------------------------------------
-- What is blamed is what the check fails with
-----------------------------------------------------------------------------------------

/-- The error names a property, so that it is passed on as it is. -/
def NamesProperty : Error → Prop
  | .typeMismatch (some _) _ _ | .propertyMismatch _ _ | .requiredProperty _ _ => True
  | _ => False

/-- An error that names a property already says where it is, and no list adds to it. -/
theorem ofItem_of_namesProperty (h : NamesProperty e) (index : Nat)
    : Check.ofItem t index w e = e := by
  cases e with
  | typeMismatch property => cases property <;> first | rfl | cases h
  | _ => rfl

/-- Nor does a property further out. -/
theorem ofProperty_of_namesProperty (h : NamesProperty e) : Check.ofProperty p w e = e := by
  cases e with
  | typeMismatch property => cases property <;> first | rfl | cases h
  | elementMismatch => cases h
  | _ => rfl

/-- The first item that does not conform decides over the list. -/
theorem ReachesItem.check {before : List Value} (reached : t.ReachesItem o v before w)
    (mismatch : t.item.check w o = .error cause)
    : t.check v o = .error (Check.ofItem t before.length w cause) := by
  obtain ⟨isArray, ⟨after, rfl⟩, earlier⟩ := reached
  rw [check_of_array isArray]
  refine Check.items_error_iff.mpr
    ⟨before, w, after, cause, rfl, ?_, check_item.symm.trans mismatch, by rw [Nat.zero_add]⟩
  exact fun b member => check_item.symm.trans (earlier b member)

/-- The first property that is not in order decides over the object. -/
theorem ReachesProperty.check (reached : t.ReachesProperty o v members p)
    (failed : Check.property o t members p = .error e)
    : t.check v o = .error e := by
  obtain ⟨judged, gives, before, key, after, split, earlier⟩ := reached
  rw [judged.check gives]
  exact Check.checkProperties_error_iff.mpr ⟨before, key, p, after, split, earlier, failed⟩

/-- In particular, it does so by the value that it has. -/
theorem ReachesProperty.check_value (reached : t.ReachesProperty o v members p)
    (judges : p.Judges o members w) (mismatch : p.type.check w o = .error cause)
    : t.check v o = .error (Check.ofProperty p w cause) :=
  reached.check (Check.property_error_iff.mpr (Or.inr ⟨w, cause, judges, mismatch, rfl⟩))

/-- An error that names a property is passed on all the way. -/
theorem Leads.check (leads : t.Leads o v u x) (names : NamesProperty e)
    (failed : u.check x o = .error e)
    : t.check v o = .error e := by
  induction leads with
  | here => exact failed
  | item reached next ih =>
      rw [reached.check (ih failed), ofItem_of_namesProperty names]
  | property reached judges next ih =>
      rw [reached.check_value judges (ih failed), ofProperty_of_namesProperty names]

/-- Such an error is what the check fails with. -/
theorem BlamesItem.check (blames : t.BlamesItem o v e) : t.check v o = .error e := by
  obtain ⟨reached, wrong⟩ := blames
  exact reached.check (check_of_not_suits wrong)

/-- And so is every other one that tells of the first place. -/
theorem Blames.check (blames : t.Blames o v e) : t.check v o = .error e := by
  cases blames with
  | kind wrong => exact check_of_not_suits wrong
  | item inside => exact inside.check
  | missing leads reached missing =>
      refine leads.check trivial (reached.check ?_)
      exact Check.property_error_iff.mpr (Or.inl ⟨missing, rfl⟩)
  | property leads reached judges wrong =>
      exact leads.check trivial (reached.check_value judges (check_of_not_suits wrong))
  | propertyItem leads reached judges inside =>
      have failed := reached.check_value judges inside.check
      rw [inside.ofProperty] at failed
      exact leads.check trivial failed

/-- A check fails with the error that tells of the first place that does not conform. -/
theorem check_error_iff_blames (t : TypeNode) (v : Value) (o : CheckOptions) (e : Error)
    : t.check v o = .error e ↔ t.Blames o v e :=
  ⟨blames_of_error, Blames.check⟩

end TypeNode

end Raml
