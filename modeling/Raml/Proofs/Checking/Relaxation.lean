import Raml.Proofs.Checking.Conforming

/-! Relaxed checks take all that stricter ones take.

A check that is relaxed further goes on where it would have stopped, and may come to other parts of
a value; none of them can be refused that was not refused before. For each way of relaxing checks
there is a value that is only taken where they are relaxed so.
-/

namespace Raml

/-- Checks are relaxed by `o'` in all the ways in which they are relaxed by `o`. -/
structure CheckOptions.Within (o o' : CheckOptions) : Prop where
  integerAsNumber : o.integerAsNumber = true → o'.integerAsNumber = true
  nullAsArray : o.nullAsArray = true → o'.nullAsArray = true
  emptyRequired : o.emptyRequired = true → o'.emptyRequired = true

variable {o o' : CheckOptions} {t : TypeNode} {v : Value}

-----------------------------------------------------------------------------------------
-- What conforms still conforms
-----------------------------------------------------------------------------------------

/-- Each kind takes at least as much where checks are relaxed further. -/
theorem Kind.Takes.mono {whole : Float → Prop} {kind : Kind} (within : o.Within o')
    (takes : kind.Takes o whole v)
    : kind.Takes o' whole v := by
  cases takes with
  | boolean b => exact .boolean b
  | string s => exact .string s
  | datetime s => exact .datetime s
  | nil => exact .nil
  | integer i => exact .integer i
  | numberAsInteger may h => exact .numberAsInteger (within.integerAsNumber may) h
  | number x => exact .number x
  | integerAsNumber i may => exact .integerAsNumber i (within.integerAsNumber may)
  | array vs => exact .array vs
  | nullAsArray may => exact .nullAsArray (within.nullAsArray may)
  | file v => exact .file v
  | any v => exact .any v

/-- A property that has to be there by the relaxed options had to be there before. -/
theorem Check.Present.mono {p : Property} {members : Option (List (String × Value))}
    (within : o.Within o') (present : Present o p members)
    : Present o' p members := by
  intro required counts
  have counted : p.type.isArray = true → o.nullAsArray = false := by
    intro isArray
    cases may : o.nullAsArray with
    | false => rfl
    | true => exact (within.nullAsArray may).symm.trans (counts isArray)
  obtain ⟨w, found, empty⟩ := present required counted
  exact ⟨w, found, empty.imp_left within.emptyRequired⟩

/-- By induction on the derivation that the value conforms. -/
theorem TypeNode.Conforms.mono {whole : Float → Prop} (within : o.Within o')
    (conforms : t.Conforms o whole v)
    : t.Conforms o' whole v := by
  induction conforms with
  | array isArray _ each => exact .array isArray each
  | nullAsArray isArray may => exact .nullAsArray isArray (within.nullAsArray may)
  | ofKind single takes => exact .ofKind single (takes.mono within)
  | inPlace v single kind inPlace => exact .inPlace v single kind inPlace
  | object judged there _ each =>
      exact .object judged (fun key p member => (there key p member).mono within) each
  | null judged there => exact .null judged fun key p member => (there key p member).mono within

/-- So do types, by induction on why a value conforms. -/
theorem TypeNode.Accepts.mono (within : o.Within o') (accepts : t.Accepts o v)
    : t.Accepts o' v := by
  rw [accepts_iff_conforms_isWhole] at accepts ⊢
  exact accepts.mono within

-----------------------------------------------------------------------------------------
-- What tells options apart
-----------------------------------------------------------------------------------------

namespace TypeNode

/-- A type that is only a built-in name takes what its kind takes. -/
theorem ofName_accepts_iff_takes {name : String} (single : (ofName name).isArray = false)
    (kind : (ofName name).kind.hasProperties = false)
    : (ofName name).Accepts o v
      ↔ (ofName name).kind.Takes o (fun x => Value.isWhole x = true) v := by
  rw [accepts_iff_of_not_array single, acceptsItem_iff_scalar kind, Check.scalar_ok_iff]

/-- Numbers take whole numbers in one case only. -/
theorem number_accepts_integer_iff (i : Int64)
    : (ofName "number").Accepts o (.integer i) ↔ o.integerAsNumber = true := by
  rw [ofName_accepts_iff_takes (by decide +kernel) (by decide +kernel),
    show (ofName "number").kind = .number by decide +kernel]
  constructor
  · intro takes
    cases takes
    assumption
  · exact .integerAsNumber i

/-- Lists may be null in one case only. -/
theorem array_accepts_null_iff : (ofName "array").Accepts o .null ↔ o.nullAsArray = true := by
  rw [ofName_accepts_iff_takes (by decide +kernel) (by decide +kernel),
    show (ofName "array").kind = .array by decide +kernel]
  constructor
  · intro takes
    cases takes
    assumption
  · exact .nullAsArray

/-- An object that has to have a text. -/
def titled : TypeNode := (ofName "object").withProperties [("title", .ofName "title" "string")]

/-- A required text may be empty in one case only. -/
theorem titled_accepts_empty_iff
    : titled.Accepts o (.object [("title", .string "")]) ↔ o.emptyRequired = true := by
  have text : (ofName "string").Accepts o (.string "") := by
    rw [ofName_accepts_iff_takes (by decide +kernel) (by decide +kernel),
      show (ofName "string").kind = .string by decide +kernel]
    exact .string ""
  rw [accepts_iff_of_not_array (by decide +kernel),
    acceptsItem_object_iff (by decide +kernel) (by decide +kernel)]
  constructor
  · intro all
    obtain ⟨w, found, empty⟩ := (all "title" (.ofName "title" "string") List.mem_cons_self).1 rfl
      (fun isArray => nomatch isArray)
    cases found
    exact empty.resolve_right (by decide)
  · intro may key p member
    cases List.mem_singleton.mp member
    refine ⟨fun _ _ => ⟨_, rfl, Or.inl may⟩, fun w found => Or.inr ?_⟩
    cases found
    exact text

/-- Checks are relaxed further exactly if they take more: whatever the type, every value that is
taken with the stricter options is taken with the others. -/
theorem within_iff_forall_check_ok (o o' : CheckOptions)
    : o.Within o' ↔ ∀ (t : TypeNode) (v : Value), t.check v o = .ok () → t.check v o' = .ok () := by
  constructor
  · exact fun within t v accepts => Accepts.mono within accepts
  · intro all
    exact {
      integerAsNumber := fun may =>
        (number_accepts_integer_iff 0).mp (all _ _ ((number_accepts_integer_iff 0).mpr may))
      nullAsArray := fun may => array_accepts_null_iff.mp (all _ _ (array_accepts_null_iff.mpr may))
      emptyRequired := fun may =>
        titled_accepts_empty_iff.mp (all _ _ (titled_accepts_empty_iff.mpr may)) }

end TypeNode

end Raml
