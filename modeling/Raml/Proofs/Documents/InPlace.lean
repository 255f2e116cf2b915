import Raml.Proofs.Checking.Names
import Raml.Proofs.Documents.Settled

/-! Which values types that are written in place take.

Their names read as no references, so nothing is looked up for them and nothing is known of their
values: they take anything. Brackets at the end of the name make an array of such a type as they do
of every other one, and then it takes lists of anything.
-/

namespace Raml

-----------------------------------------------------------------------------------------
-- References
-----------------------------------------------------------------------------------------

namespace TypeName

variable {name : String}

/-- One of the parts that points join. -/
def IsPart (part : String) : Prop := part ≠ "" ∧ ∀ c ∈ part.toList, isNameChar c = true

/-- Parts that points join. -/
inductive IsPath : String → Prop where
  | part {part : String} (h : IsPart part) : IsPath part
  | joined {part rest : String} (h : IsPart part) (path : IsPath rest)
    : IsPath (part ++ "." ++ rest)

/-- What reads as the name of a declared type, or of an array of such types. -/
inductive Reference : String → Prop where
  | single {name : String} (path : IsPath name) : Reference name
  | many {name : String} (path : IsPath name) : Reference (name ++ "[]")

/-- The name ends with brackets. -/
def Bracketed (name : String) : Prop := ∃ base, name = base ++ "[]"

/-- A name ends with brackets, which are taken off, or it is left as it is. -/
theorem splitArray_eq (name : String)
    : (∃ base, name = base ++ "[]" ∧ splitArray name = (base, true))
      ∨ ¬Bracketed name ∧ splitArray name = (name, false) := by
  by_cases brackets : Bracketed name
  · obtain ⟨base, rfl⟩ := brackets
    exact Or.inl ⟨base, rfl, splitArray_brackets base⟩
  · refine Or.inr ⟨brackets, splitArray_eq_self ?_⟩
    unfold splitArray
    split
    · rename_i rest ends
      have chars : name.toList = rest.reverse ++ ['[', ']'] := by
        simpa using congrArg List.reverse ends
      exact absurd ⟨String.ofList rest.reverse, String.toList_inj.mp (by simp [chars])⟩ brackets
    · rfl

/-- Arrays are what names with brackets stand for. -/
theorem bracketed_iff : Bracketed name ↔ (splitArray name).2 = true := by
  rcases splitArray_eq name with ⟨base, same, split⟩ | ⟨plain, split⟩
  · rw [split]
    exact ⟨fun _ => rfl, fun _ => ⟨base, same⟩⟩
  · simp [split, plain]

/-- Parts have no points in them. -/
theorem IsPart.undotted {part : String} (h : IsPart part) : '.' ∉ part.toList := by
  intro dot
  exact absurd (h.2 '.' dot) (by decide)

/-- A path has no other characters than parts and the points between them. -/
theorem IsPath.chars (path : IsPath name) : ∀ c ∈ name.toList, isNameChar c = true ∨ c = '.' := by
  induction path with
  | part h => exact fun c member => Or.inl (h.2 c member)
  | joined h _ ih =>
      intro c member
      simp only [String.toList_append, List.mem_append] at member
      rcases member with (inPart | point) | inRest
      · exact Or.inl (h.2 c inPart)
      · exact Or.inr (by simpa using point)
      · exact ih c inRest

/-- Brackets stand in no path. -/
theorem IsPath.not_bracketed (path : IsPath name) : ¬Bracketed name := by
  rintro ⟨base, rfl⟩
  have bracket := path.chars ']' (by simp)
  revert bracket
  decide

/-- Parts that are joined make a path. -/
theorem isPath_intercalate {words : List (List Char)} (some : words ≠ [])
    (each : ∀ word ∈ words, IsPart (String.ofList word))
    : IsPath (String.ofList (['.'].intercalate words)) := by
  induction words with
  | nil => exact absurd rfl some
  | cons word words ih =>
      obtain ⟨first, others⟩ := List.forall_mem_cons.mp each
      cases words with
      | nil => simpa using IsPath.part first
      | cons next words =>
          have joined : String.ofList (['.'].intercalate (word :: next :: words))
              = String.ofList word ++ "." ++ String.ofList (['.'].intercalate (next :: words)) :=
            String.toList_inj.mp (by simp [List.intercalate])
          exact joined ▸ .joined first (ih (by simp) others)

/-- A name is a path if each part between its points is one. -/
theorem isPath_iff : IsPath name ↔ ∀ part ∈ parts name, IsPart part := by
  constructor
  · intro path
    induction path with
    | part h => simpa [parts, List.splitOn_eq_singleton h.undotted] using h
    | joined h _ ih =>
        rw [parts_append_point h.undotted]
        exact List.forall_mem_cons.mpr ⟨h, ih⟩
  · intro each
    have path := isPath_intercalate (List.splitOn_ne_nil '.' name.toList)
      fun word member => each _ (List.mem_map.mpr ⟨word, member, rfl⟩)
    rwa [List.intercalate_splitOn, String.ofList_toList] at path

/-- Names are read as references exactly if they are spelled like ones. -/
theorem isReference_iff : isReference name = true ↔ Reference name := by
  have path : isReference name = true ↔ IsPath (splitArray name).1 := by
    rw [isPath_iff, isReference, List.all_eq_true]
    simp [IsPart]
  rw [path]
  rcases splitArray_eq name with ⟨base, rfl, split⟩ | ⟨plain, split⟩
  · rw [split]
    refine ⟨.many, fun reference => ?_⟩
    generalize same : base ++ "[]" = name at reference
    cases reference with
    | single path => exact absurd ⟨base, same.symm⟩ path.not_bracketed
    | many path =>
        have bases := congrArg splitArray same
        rw [splitArray_brackets, splitArray_brackets] at bases
        exact (Prod.mk.inj bases).1 ▸ path
  · rw [split]
    refine ⟨.single, fun reference => ?_⟩
    cases reference with
    | single path => exact path
    | many path => exact absurd ⟨_, rfl⟩ plain

instance : Decidable (Reference name) := decidable_of_iff _ isReference_iff

end TypeName

-----------------------------------------------------------------------------------------
-- Types
-----------------------------------------------------------------------------------------

/-- The names of kinds read as references, but for the empty one. -/
theorem Kind.ofName_of_isInline {name : String} (inPlace : TypeName.isInline name = true)
    : (ofName (TypeName.splitArray name).1).hasProperties = true
      ∨ ofName (TypeName.splitArray name).1 = .any := by
  unfold TypeName.isInline TypeName.isReference at inPlace
  generalize (TypeName.splitArray name).1 = base at inPlace ⊢
  unfold ofName
  split
  all_goals first
    | exact Or.inl rfl
    | exact Or.inr rfl
    | exact absurd inPlace (by decide)

namespace TypeNode

variable {t : TypeNode}

/-- The name of the type decides whether it is an array, and of which kind it is if it is written in
place. -/
structure JudgedByName (t : TypeNode) : Prop where
  isArray : t.isArray = (TypeName.splitArray t.typeName).2
  kind (inPlace : t.isInline = true) : t.kind = .ofName (TypeName.splitArray t.typeName).1

/-- If the type is written in place, it takes any value. If brackets make it an array, it takes any
list, and null where that counts as one. -/
def Exempt (t : TypeNode) : Prop :=
  ¬TypeName.Reference t.typeName → ∀ v o,
    (¬TypeName.Bracketed t.typeName → t.check v o = .ok ())
      ∧ (TypeName.Bracketed t.typeName
        → (t.check v o = .ok () ↔ (∃ vs, v = .array vs) ∨ v = .null ∧ o.nullAsArray = true))

/-- A type in place takes any value as an item. -/
theorem JudgedByName.acceptsItem (judged : t.JudgedByName) (inPlace : t.isInline = true)
    {o : CheckOptions} {v : Value}
    : t.AcceptsItem o v := by
  have kind := judged.kind inPlace
  rcases Kind.ofName_of_isInline inPlace with unknown | any
  · exact acceptsItem_of_inline (kind ▸ unknown) inPlace
  · rw [any] at kind
    rw [acceptsItem_iff_scalar (by rw [kind]; rfl)]
    simp [Check.scalar, kind]

/-- So the whole exemption follows from the name. -/
theorem JudgedByName.exempt (judged : t.JudgedByName) : t.Exempt := by
  intro noReference v o
  have inPlace : t.isInline = true := by
    rw [← TypeName.isReference_iff] at noReference
    simpa [isInline, TypeName.isInline] using noReference
  have items (w : Value) : t.AcceptsItem o w := judged.acceptsItem inPlace
  rw [TypeName.bracketed_iff, ← judged.isArray]
  constructor
  · intro single
    exact (accepts_iff_of_not_array (by simpa using single)).mpr (items v)
  · intro array
    refine (accepts_iff_of_array array).trans (or_congr_left (exists_congr fun vs => ?_))
    exact and_iff_left fun w _ => items w

/-- Types with a base are not written in place, and others inherit nothing. -/
theorem JudgedByName.fillFrom (judged : t.JudgedByName) (find : String → Option TypeNode)
    : (t.fillFrom find).JudgedByName := by
  cases resolved : t.resolved with
  | true => rwa [fillFrom_of_resolved resolved]
  | false =>
      rw [fillFrom_eq resolved]
      cases found : t.base?.bind find with
      | none => exact ⟨judged.isArray, judged.kind⟩
      | some base =>
          obtain ⟨name, asked, -⟩ := Option.bind_eq_some_iff.mp found
          rw [filled_some]
          exact ⟨judged.isArray, fun inPlace =>
            nomatch (not_isInline_of_base? asked).symm.trans inPlace⟩

end TypeNode

-----------------------------------------------------------------------------------------
-- Parts of documents
-----------------------------------------------------------------------------------------

namespace Rules

variable {R : Rules} {t : TypeNode} {part : Part}

/-- A sound type is judged by its name. -/
theorem OfType.judgedByName (h : R.OfType t) : t.JudgedByName where
  isArray := by rw [h.name]
  kind inPlace := by rw [h.name, h.inPlace inPlace]

/-- What is demanded of a type is demanded of every type in it. -/
theorem All.within {u : TypeNode} (h : R.All u.leaves) (inside : t.Within u) : R.All t.leaves := by
  induction inside with
  | self => exact h
  | property member _ ih => exact ih ((all_type.mp h).2.2 _ member).2

/-- What is demanded of a part of a document. -/
def OfPart (R : Rules) : Part → Prop
  | .type t => R.All t.leaves
  | .properties properties => R.OfProperties properties

/-- The same for the parts of a document, which the types stand in. -/
theorem OfPart.has (h : R.OfPart part) (has : part.Has t) : R.All t.leaves := by
  cases part with
  | type u => exact All.within h has
  | properties properties =>
      obtain ⟨key, p, member, inside⟩ := has
      exact All.within (h.2 _ member).2 inside

/-- What is demanded of all leaves is demanded of each part, from bodies up to libraries. -/
theorem ofPart_of_bodies {bodies : Bodies} (h : R.All (Bodies.leaves bodies))
    (member : part ∈ bodies.parts)
    : R.OfPart part := by
  obtain ⟨entry, inside, rfl⟩ := List.mem_map.mp member
  exact (all_bodies.mp h).2 entry inside

theorem ofPart_of_response {r : Response} (h : R.OfResponse r) (member : part ∈ r.parts)
    : R.OfPart part := by
  rcases List.mem_cons.mp member with rfl | inBodies
  · exact h.headers
  · exact ofPart_of_bodies h.bodies inBodies

mutual

/-- By induction on methods and the traits that they use. -/
theorem ofPart_of_method : ∀ m : Method, R.OfMethod m → part ∈ m.parts → R.OfPart part
  | ⟨_, _, _, _, _, _, responses, _, _, is, _, _⟩, h, member => by
      simp only [Method.parts, List.cons_append, List.mem_cons, List.mem_append, List.mem_flatMap]
        at member
      rcases member with rfl | rfl | (inUses | inBodies) | ⟨entry, answered, inResponse⟩
      · exact h.queryParameters
      · exact h.headers
      · exact ofPart_of_traits is (all_traits.mp h.is) inUses
      · exact ofPart_of_bodies h.bodies inBodies
      · exact ofPart_of_response (all_response.mp ((all_responses.mp h.responses).2 entry answered))
          inResponse

theorem ofPart_of_trait : ∀ trait : Trait, R.All trait.leaves → part ∈ trait.parts → R.OfPart part
  | ⟨_, method, _, _, _, _, _⟩, h, member => ofPart_of_method method (all_trait.mp h) member

theorem ofPart_of_traits
    : ∀ traits : List Trait, (∀ trait ∈ traits, R.All trait.leaves) → part ∈ traitParts traits
      → R.OfPart part
  | first :: traits, h, member => by
      obtain ⟨own, others⟩ := List.forall_mem_cons.mp h
      rcases List.mem_append.mp member with inFirst | inRest
      · exact ofPart_of_trait first own inFirst
      · exact ofPart_of_traits traits others inRest

end

mutual

/-- By induction on resources and those below them. -/
theorem ofPart_of_resource : ∀ r : Resource, R.OfResource r → part ∈ r.parts → R.OfPart part
  | ⟨_, _, _, methods, is, _, _, _, resources⟩, h, member => by
      simp only [Resource.parts, List.cons_append, List.mem_cons, List.mem_append,
        List.mem_flatMap] at member
      rcases member with rfl | (inUses | ⟨entry, declared, inMethod⟩) | below
      · exact h.uriParameters
      · exact ofPart_of_traits is (all_traits.mp h.is) inUses
      · exact ofPart_of_method entry.2 (all_method.mp ((all_methods.mp h.methods).2 entry declared))
          inMethod
      · exact ofPart_of_resources resources (all_resources.mp h.resources).2 below

theorem ofPart_of_resources
    : ∀ resources : List (String × Resource), (∀ entry ∈ resources, R.All entry.2.leaves)
      → part ∈ resourceParts resources → R.OfPart part
  | first :: resources, h, member => by
      obtain ⟨own, others⟩ := List.forall_mem_cons.mp h
      rcases List.mem_append.mp member with inFirst | inRest
      · exact ofPart_of_resource first.2 (all_resource.mp own) inFirst
      · exact ofPart_of_resources resources others inRest

end

/-- By induction on libraries and those that they use. -/
theorem ofPart_of_library {l : Library} (h : R.All l.allLeaves)
    : ∀ pos, ∀ spot ∈ l.spots pos, R.OfPart spot.part := by
  induction l using Library.induct with
  | step l ih =>
      intro pos
      obtain ⟨own, used⟩ := all_library.mp h
      refine Library.forall_spots_iff.mpr ⟨?_, ?_, ?_, forall_mem_useSpots fun name m member => ?_⟩
      · exact fun entry member => (all_table.mp own.types).2 entry member
      · intro entry member part inside
        exact ofPart_of_trait entry.2 ((all_table.mp own.traits).2 entry member) inside
      · intro entry member
        exact all_annotationType.mp ((all_table.mp own.annotationTypes).2 entry member)
      · exact ih name m member (used name m member) _

/-- What is demanded of a document is demanded of all the types in it. -/
theorem All.has {d : Document} (h : R.All d.allLeaves) (has : d.Has t) : R.All t.leaves := by
  have own := all_document.mp h
  obtain ⟨spot, member, inside⟩ := has
  have parts : ∀ spot ∈ d.spots, R.OfPart spot.part := by
    have resources := (all_resources.mp own.resources).2
    exact Document.forall_spots_iff.mpr ⟨ofPart_of_library own.library _,
      fun part inside => ofPart_of_resources d.resources resources inside, own.baseUriParameters⟩
  exact (parts spot member).has inside

end Rules

/-- In a document whose leaves are sound, types written in place take anything. -/
theorem Document.exempt {R : Rules} {d : Document} (h : R.All d.allLeaves) {t : TypeNode}
    (has : d.Has t)
    : t.Exempt :=
  (Rules.all_type.mp (h.has has)).1.judgedByName.exempt

namespace Parser

/-- Types that are written in place take anything, as they are decoded, whatever they are filled
from, and in all that has been parsed. -/
theorem exempt_of_parse (p : Parser)
    : (∀ node path t, Decode.typeNode node path = .ok t
        → t.Exempt ∧ ∀ l t', t.fill l = .ok t' → t'.Exempt)
      ∧ (∀ d : Document, d.Written → ∀ t, d.Has t → t.Exempt)
      ∧ (∀ bytes directory d, p.document bytes directory = .ok d → ∀ t, d.Has t → t.Exempt)
      ∧ ∀ bytes directory l, p.library bytes directory = .ok l
        → ∀ t, Document.Has { library := l } t → t.Exempt := by
  refine ⟨?_, ?_, ?_, ?_⟩
  · intro node path t decoded
    have own := (Rules.all_type.mp (Decode.typeNode_sound node path t decoded)).1
    refine ⟨own.judgedByName.exempt, fun l t' filled => ?_⟩
    rcases t.fill_cases l with ⟨ok, -⟩ | ⟨name, -, -, error⟩
    · cases ok.symm.trans filled
      exact (own.judgedByName.fillFrom _).exempt
    · cases error.symm.trans filled
  · exact fun d written t has => Document.exempt written.sound has
  · intro bytes directory d parsed t has
    obtain ⟨d₀, written, resolved⟩ := resolve_of_document parsed
    exact Document.exempt (complete_of_resolve written resolved) has
  · intro bytes directory l parsed t has
    obtain ⟨d₀, d, written, resolved, same⟩ := resolve_of_library parsed
    subst same
    exact Document.exempt (complete_of_resolve written resolved) has.of_library

/-- Amounts are numbers of either kind. A note seems to be a text or a list, but its name ends with
brackets. -/
def amounts : Bytes :=
  Bytes.ofText "types:\n  Amount: integer | number\n  Note: string | integer[]\n"

def ledger : Bytes := Bytes.ofText "title: Ledger\n" ++ amounts

/-- A choice that ends with brackets is an array, which takes lists of anything. -/
theorem exempt_of_parse_ledger
    : (∃ t t', Decode.typeNode (.str "string | integer[]") "" = .ok t ∧ t.fill .empty = .ok t'
        ∧ ¬TypeName.Reference t.typeName ∧ t.Exempt ∧ t'.Exempt)
      ∧ (∃ d t, Document.Written d ∧ Keyed.get? d.library.types "Amount" = some t
        ∧ ¬TypeName.Reference t.typeName ∧ t.Exempt)
      ∧ (∃ d t, ({} : Parser).document ledger ⟨"."⟩ = .ok d
        ∧ Keyed.get? d.library.types "Amount" = some t ∧ ¬TypeName.Reference t.typeName ∧ t.Exempt)
      ∧ ∃ l t, ({} : Parser).library amounts ⟨"."⟩ = .ok l ∧ Keyed.get? l.types "Note" = some t
        ∧ ¬TypeName.Reference t.typeName ∧ t.Exempt := by
  obtain ⟨declared, written, documents, libraries⟩ := exempt_of_parse {}
  refine ⟨?_, ?_, ?_, ?_⟩
  · have found : ((Decode.typeNode (.str "string | integer[]") "").toOption.any fun t =>
        (t.fill .empty).toOption.isSome && decide ¬TypeName.Reference t.typeName) = true := by
      decide +kernel
    obtain ⟨t, decoded, found⟩ := (Option.any_eq_true _ _).mp found
    obtain ⟨filled, noReference⟩ := Bool.and_eq_true_iff.mp found
    obtain ⟨t', filled⟩ := Option.isSome_iff_exists.mp filled
    have decoded := ok_of_toOption decoded
    have filled := ok_of_toOption filled
    obtain ⟨own, others⟩ := declared _ _ t decoded
    exact ⟨t, t', decoded, filled, of_decide_eq_true noReference, own, others _ t' filled⟩
  · have found : ((Decode.document (.map [(.str "title", .str "Ledger"),
        (.str "types", .map [(.str "Amount", .str "integer | number")])])).toOption.any fun d =>
          (Keyed.get? d.library.types "Amount").any fun t =>
            ¬TypeName.Reference t.typeName) = true := by
      decide +kernel
    obtain ⟨d, decoded, found⟩ := (Option.any_eq_true _ _).mp found
    obtain ⟨t, entry, noReference⟩ := (Option.any_eq_true _ _).mp found
    have spelled : Document.Written { d with directory := ⟨"."⟩ } :=
      .document (ok_of_toOption decoded) _
    exact ⟨_, t, spelled, entry, of_decide_eq_true noReference,
      written _ spelled t (Document.has_of_get? entry)⟩
  · have found : ((({} : Parser).document ledger ⟨"."⟩).toOption.any fun d =>
        (Keyed.get? d.library.types "Amount").any fun t =>
          ¬TypeName.Reference t.typeName) = true := by
      rw [ledger, amounts]
      repeat rw [Bytes.ofText_ofList]
      decide +kernel
    obtain ⟨d, parsed, found⟩ := (Option.any_eq_true _ _).mp found
    obtain ⟨t, entry, noReference⟩ := (Option.any_eq_true _ _).mp found
    have parsed := ok_of_toOption parsed
    exact ⟨d, t, parsed, entry, of_decide_eq_true noReference,
      documents _ _ d parsed t (Document.has_of_get? entry)⟩
  · have found : ((({} : Parser).library amounts ⟨"."⟩).toOption.any fun l =>
        (Keyed.get? l.types "Note").any fun t => ¬TypeName.Reference t.typeName) = true := by
      rw [amounts, Bytes.ofText_ofList]
      decide +kernel
    obtain ⟨l, parsed, found⟩ := (Option.any_eq_true _ _).mp found
    obtain ⟨t, entry, noReference⟩ := (Option.any_eq_true _ _).mp found
    have parsed := ok_of_toOption parsed
    exact ⟨l, t, parsed, entry, of_decide_eq_true noReference,
      libraries _ _ l parsed t (Document.has_of_get? (d := { library := l }) entry)⟩

/-- Brackets at its end make an array of what seems to be a choice: it takes no text. -/
theorem not_exempt_of_parse
    : ¬∀ (p : Parser) (bytes : Bytes) (directory : Path) (d : Document),
        p.document bytes directory = .ok d → ∀ t, d.Has t → ¬TypeName.Reference t.typeName
        → ∀ v o, t.check v o = .ok () := by
  intro exempt
  have found : ((({} : Parser).document ledger ⟨"."⟩).toOption.any fun d =>
      (Keyed.get? d.library.types "Note").any fun t =>
        decide (¬TypeName.Reference t.typeName)
          && (t.check (.string "a") {}).toOption.isNone) = true := by
    rw [ledger, amounts]
    repeat rw [Bytes.ofText_ofList]
    decide +kernel
  obtain ⟨d, parsed, found⟩ := (Option.any_eq_true _ _).mp found
  obtain ⟨t, entry, found⟩ := (Option.any_eq_true _ _).mp found
  obtain ⟨noReference, refused⟩ := Bool.and_eq_true_iff.mp found
  have accepted := exempt {} ledger ⟨"."⟩ d (ok_of_toOption parsed) t (Document.has_of_get? entry)
    (of_decide_eq_true noReference) (.string "a") {}
  rw [accepted] at refused
  cases refused

end Parser

end Raml
