import Raml.Proofs.Cache.Agreement
import Raml.Proofs.Declarations.Groups

/-! Bounds of lengths, from the declaration of a type to what is written of it.

Three places choose between the groups for texts and for files: what is read goes by the name of the
base, what is inherited does not choose at all, and what is written goes by the kind that the type
has come to be of. The first and the last choose alike unless a type is a file by way of another
declaration.
-/

namespace Raml

open Form

-----------------------------------------------------------------------------------------
-- What is written
-----------------------------------------------------------------------------------------

namespace Form

/-- The keys of members that hold bounds of a length. -/
def lengthKeys : List String := ["minLength", "maxLength"]

/-- The members that hold bounds of a length. -/
def lengths (ms : Members) : Members := ms.filter fun m => m.1 ∈ lengthKeys

/-- The members for two bounds. -/
def lengthMembers (bounds : Int64 × Int64) : Members :=
  number "minLength" 0 bounds.1 ++ number "maxLength" unbounded bounds.2

variable {key : String} {c : Prop} [Decidable c] {j : Json}

theorem lengths_append (ms ns : Members) : lengths (ms ++ ns) = lengths ms ++ lengths ns :=
  List.filter_append ms ns

/-- Of members that hold a bound, none is left out. -/
theorem lengths_own (own : key ∈ lengthKeys)
    : lengths (if c then [] else [(key, j)]) = if c then [] else [(key, j)] := by
  split <;> simp [lengths, own]

/-- Other members are. -/
theorem lengths_other (other : key ∉ lengthKeys)
    : lengths (if c then [] else [(key, j)]) = [] := by
  split <;> simp [lengths, other]

theorem lengths_optional (other : key ∉ lengthKeys) (value : Option Json)
    : lengths (Form.optional key value) = [] := by
  cases value <;> simp [lengths, Form.optional, other]

end Form

/-- Of the members of a type, those for the bounds that are written hold bounds of a length, and no
others do. -/
theorem TypeNode.lengths_members (t : TypeNode)
    : lengths t.members = lengthMembers t.lengthBounds := by
  rw [TypeNode.members_eq, lengthMembers]
  simp only [Declaration.members, ObjectFacets.boundMembers, TypeNode.facetMembers,
    ArrayFacets.members, Annotations.members, lengths_append, text, map, flag, number, list, texts]
  simp (disch := decide) only [lengths_own, lengths_other, lengths_optional, List.append_nil,
    List.nil_append]

-----------------------------------------------------------------------------------------
-- What is declared
-----------------------------------------------------------------------------------------

namespace TypeNode

variable {t t' : TypeNode}

/-- The bounds that a declaration sets: for files if the name of its base is theirs, and for texts
otherwise. -/
def declaredLength (t : TypeNode) : Int64 × Int64 :=
  if t.baseName = "file" then (t.file.minLength, t.file.maxLength)
  else (t.string.minLength, t.string.maxLength)

/-- The bounds where a declaration sets none. -/
def anyLength : Int64 × Int64 := (0, unbounded)

/-- What becomes of the bounds that a declaration sets when the type comes to be another one. -/
structure LengthKept (t t' : TypeNode) : Prop where
  /-- They are written, and no others are. -/
  written (named : t'.kind = .file → t.baseName = "file")
    : t'.lengthBounds = t.declaredLength ∧ lengths t'.members = lengthMembers t.declaredLength
  /-- A file by way of another declaration has them where texts have theirs. What is written are the
  bounds for files, inherited unless the declaration sets something else for files. -/
  lost (file : t'.kind = .file) (other : t.baseName ≠ "file")
    : (t'.string.minLength, t'.string.maxLength) = t.declaredLength
      ∧ lengths t'.members = lengthMembers (t'.file.minLength, t'.file.maxLength)
      ∧ (t.file.isEmpty = false → t'.file = t.file)

/-- The kind chooses between the groups when bounds are written. -/
theorem lengthBounds_of_file (h : t.kind = .file)
    : t.lengthBounds = (t.file.minLength, t.file.maxLength) := by
  rw [lengthBounds, h]

/-- All kinds but one have the bounds of texts. -/
theorem lengthBounds_of_not_file (h : t.kind ≠ .file)
    : t.lengthBounds = (t.string.minLength, t.string.maxLength) := by
  unfold lengthBounds
  split
  · exact absurd ‹_› h
  · rfl

/-- A group with a bound sets something. -/
theorem isEmpty_string_of_length (h : (t.string.minLength, t.string.maxLength) ≠ anyLength)
    : t.string.isEmpty = false := by
  contrapose! h
  simp only [ne_eq, Bool.not_eq_false, StringFacets.isEmpty, Bool.and_eq_true, beq_iff_eq] at h
  rw [h.1.2, h.2, anyLength]

/-- The same for the group of files. -/
theorem isEmpty_file_of_length (h : (t.file.minLength, t.file.maxLength) ≠ anyLength)
    : t.file.isEmpty = false := by
  contrapose! h
  simp only [ne_eq, Bool.not_eq_false, FileFacets.isEmpty, Bool.and_eq_true, beq_iff_eq] at h
  rw [h.1.2, h.2, anyLength]

/-- Where the group that sets a bound is kept, so is the bound, as far as kind and base agree on the
group. -/
theorem LengthKept.of_keepsGroups (kind : t.kind = .ofName t.baseName) (kept : t.KeepsGroups t')
    (set : t.declaredLength ≠ anyLength)
    : t.LengthKept t' := by
  rw [declaredLength] at set
  by_cases named : t.baseName = "file"
  · rw [if_pos named] at set
    have file : t'.file = t.file := kept.file (isEmpty_file_of_length set)
    have isFile : t'.kind = .file := by
      rw [kept.kind (by rw [named]; rfl), kind, named]
      rfl
    have bounds : t'.lengthBounds = t.declaredLength := by
      rw [lengthBounds_of_file isFile, file, declaredLength, if_pos named]
    exact ⟨fun _ => ⟨bounds, by rw [lengths_members, bounds]⟩, fun _ other => absurd named other⟩
  · rw [if_neg named] at set
    have string : t'.string = t.string := kept.string (isEmpty_string_of_length set)
    have declared : (t'.string.minLength, t'.string.maxLength) = t.declaredLength := by
      rw [string, declaredLength, if_neg named]
    refine ⟨fun only => ?_, fun file _ => ⟨declared, ?_, kept.file⟩⟩
    · have bounds : t'.lengthBounds = t.declaredLength := by
        rw [lengthBounds_of_not_file fun file => named (only file), declared]
      exact ⟨bounds, by rw [lengths_members, bounds]⟩
    · rw [lengths_members, lengthBounds_of_file file]

/-- Declarations that set bounds keep them as far as they are written, at every depth. -/
abbrev KeepsLengths : TypeNode → TypeNode → Prop :=
  Aligned fun t t' => t.declaredLength ≠ anyLength → t.LengthKept t'

/-- Before anything is inherited, kinds are those of the names. -/
theorem Fresh.kinds (fresh : t.Fresh) : t.Throughout fun u => u.kind = .ofName u.baseName := by
  induction t using TypeNode.induct with
  | step t ih =>
      refine throughout_iff.mpr ⟨fresh.kind_eq, fun key p member => ?_⟩
      exact ih key p member (fresh.property member)

/-- In a type that was decoded, kind and base agree at every depth. -/
theorem KeepsLengths.of_keepsAll (fresh : t.Fresh) (kept : t.KeepsAll t') : t.KeepsLengths t' :=
  Aligned.mono kept fresh.kinds fun _ _ kind kept => .of_keepsGroups kind kept

end TypeNode

-----------------------------------------------------------------------------------------
-- Decoding
-----------------------------------------------------------------------------------------

namespace Decode

open Yaml (Node)

variable {node : Node}

/-- The bounds that fields declare are those of the type, and it has none in the group that it does
not keep them in. -/
def DeclaresLength (f : Fields node) (t : TypeNode) : Prop :=
  f.orElse "minLength" integer 0 = .ok t.declaredLength.1
    ∧ f.orElse "maxLength" integer unbounded = .ok t.declaredLength.2
    ∧ (t.baseName ≠ "file" → (t.file.minLength, t.file.maxLength) = TypeNode.anyLength)

/-- A field for a bound is read into the group that the name of the base chooses. -/
theorem typeWithProperties_declaresLength (f : Fields node) (name : String)
    (declaration : Declaration) (properties : Properties)
    : Yields (typeWithProperties f name declaration properties) (DeclaresLength f) := by
  refine Yields.skip fun object => Yields.skip fun values => Yields.skip fun pattern => ?_
  refine Yields.skip fun array => Yields.skip fun fileTypes => ?_
  refine Yields.keep fun minLength min => Yields.keep fun maxLength max => Yields.ok ?_
  generalize (if name.isEmpty && !properties.isEmpty then "object" else name) = called
  have base (t : TypeNode) : (t.setName called).baseName = (TypeName.splitArray called).1 := rfl
  split
  · rename_i named
    refine ⟨?_, ?_, fun other => absurd ((base _).trans named) other⟩
    · rw [min, TypeNode.declaredLength, if_pos ((base _).trans named)]
      rfl
    · rw [max, TypeNode.declaredLength, if_pos ((base _).trans named)]
      rfl
  · rename_i other
    have other (t : TypeNode) : (t.setName called).baseName ≠ "file" := other
    refine ⟨?_, ?_, fun _ => rfl⟩
    · rw [min, TypeNode.declaredLength, if_neg (other _)]
      rfl
    · rw [max, TypeNode.declaredLength, if_neg (other _)]
      rfl

/-- So it is for every type, however it is spelled. -/
theorem typeFields_declaresLength (f : Fields node)
    : Yields (typeFields node f) (DeclaresLength f) := by
  rw [typeFields]
  refine Yields.skip fun name => Yields.skip fun declaration => ?_
  split
  · exact Yields.skip fun properties => typeWithProperties_declaresLength f _ _ _
  · exact typeWithProperties_declaresLength f _ _ _

end Decode

-----------------------------------------------------------------------------------------
-- Documents
-----------------------------------------------------------------------------------------

/-- Whatever files contain, loading them brings in no types that have inherited something. -/
theorem Library.loadable_fresh
    : Loadable (fun l => ∀ entry ∈ l.types, entry.2.Fresh) fun _ => True where
  declares f l ok entry member := by
    obtain ⟨-, types, -⟩ := Decode.libraryFields_parts f l ok
    have all := (Decode.declarations_yields f "types" Decode.typeNode_fresh _ types).2
    exact all entry.1 entry.2 member
  declaration _ _ _ _ := trivial
  reference _ _ := trivial
  traits _ _ _ := trivial
  withTraits fresh _ _ _ _ := fresh

/-- The libraries that a library leads to stay where they are, and what the types declare there of
lengths is kept as far as it is written. -/
def Library.KeepsLengths (l l' : Library) : Prop :=
  ∀ path m, l.Reaches path m
    → ∃ m', l'.Reaches path m' ∧ Keyed.Related TypeNode.KeepsLengths m.types m'.types

namespace Parser

variable {p : Parser} {target : Target} {mediaTypes : Option (List String)} {d₀ d : Document}

/-- All of the way from loading to the end of parsing, bounds are kept. -/
theorem keepsLengths_of_resolve (written : d₀.Written) (h : p.resolve target mediaTypes d₀ = .ok d)
    : ∃ l, d₀.library.load p.settings p.source d₀.directory = .ok l ∧ l.KeepsLengths d.library := by
  obtain ⟨d₁, loads⟩ := exists_loads h
  obtain ⟨n, f, s, phases, -⟩ := phases_of_resolve loads h
  have fresh := Library.loadable_fresh.written written loads
  have kept := phases.keepsGroups
  obtain ⟨l, loaded, rfl⟩ := loads
  refine ⟨l, loaded, fun path m reaches => ?_⟩
  obtain ⟨m', reached, related⟩ := kept path m reaches
  refine ⟨m', reached, related.mono_of_mem fun name t t' member kept => ?_⟩
  exact .of_keepsAll (fresh path m reaches (name, t) member) kept

/-- The bounds that types declare for lengths are read as they are written. Whatever is parsed, they
are the bounds that are written of the type in the end, unless it is a file by way of another
declaration. -/
theorem keepsLengths_of_parse (p : Parser) (bytes : Bytes) (directory : Path)
    : (∀ {node : Yaml.Node} (f : Decode.Fields node) (t : TypeNode),
        Decode.typeFields node f = .ok t → Decode.DeclaresLength f t)
      ∧ (∀ d, p.document bytes directory = .ok d
        → ∃ node d₀ l, p.settings.readNode bytes = .ok node ∧ Decode.document node = .ok d₀
            ∧ d₀.library.load p.settings p.source directory = .ok l ∧ l.KeepsLengths d.library)
      ∧ ∀ l', p.library bytes directory = .ok l'
        → ∃ node l₀ l, p.settings.readNode bytes = .ok node ∧ Decode.library node "" = .ok l₀
            ∧ l₀.load p.settings p.source directory = .ok l ∧ l.KeepsLengths l' := by
  refine ⟨fun f => Decode.typeFields_declaresLength f, fun d parsed => ?_, fun l' parsed => ?_⟩
  · obtain ⟨node, read, parsed⟩ := bind_eq_ok_iff.mp parsed
    obtain ⟨d₀, decoded, parsed⟩ := bind_eq_ok_iff.mp parsed
    obtain ⟨l, loaded, kept⟩ := keepsLengths_of_resolve (.document decoded directory) parsed
    exact ⟨node, d₀, l, read, decoded, loaded, kept⟩
  · obtain ⟨node, read, parsed⟩ := bind_eq_ok_iff.mp parsed
    obtain ⟨l₀, decoded, parsed⟩ := bind_eq_ok_iff.mp parsed
    obtain ⟨d, resolved, same⟩ := bind_eq_ok_iff.mp parsed
    cases same
    obtain ⟨l, loaded, kept⟩ := keepsLengths_of_resolve (.library decoded directory) resolved
    exact ⟨node, l₀, l, read, decoded, loaded, kept⟩

/-- A library with a file that another one inherits from. Both set a bound. -/
def badgeParts : Bytes :=
  Bytes.ofText <|
    "types:\n  Logo:\n    type: file\n    maxLength: 20\n"
      ++ "  Icon:\n    type: Logo\n    maxLength: 10\n"

/-- A document with the same types. -/
def badge : Bytes := Bytes.ofText "title: Badge\n" ++ badgeParts

/-- The logo keeps its bound, in the document as in the library. -/
theorem keepsLengths_of_parse_badge
    : (∃ (node : Yaml.Node) (f : Decode.Fields node) (t : TypeNode),
        Decode.typeFields node f = .ok t ∧ t.declaredLength = (0, 10) ∧ Decode.DeclaresLength f t)
      ∧ (∃ d, ({} : Parser).document badge ⟨"."⟩ = .ok d
          ∧ (d.library.getType? "Logo").map TypeNode.lengthBounds = some (0, 20)
          ∧ ∃ node d₀ l, ({} : Settings).readNode badge = .ok node ∧ Decode.document node = .ok d₀
              ∧ d₀.library.load {} .empty ⟨"."⟩ = .ok l ∧ l.KeepsLengths d.library)
      ∧ ∃ l', ({} : Parser).library badgeParts ⟨"."⟩ = .ok l'
          ∧ (l'.getType? "Logo").map TypeNode.lengthBounds = some (0, 20)
          ∧ ∃ node l₀ l, ({} : Settings).readNode badgeParts = .ok node
              ∧ Decode.library node "" = .ok l₀ ∧ l₀.load {} .empty ⟨"."⟩ = .ok l
              ∧ l.KeepsLengths l' := by
  refine ⟨?_, ?_, ?_⟩
  · let icon : Yaml.Node :=
      .map [(.str "type", .str "Logo"), (.str "maxLength", .num (.int 10))]
    have found : ((Decode.fields icon "").toOption.any fun f =>
        (Decode.typeFields icon f).toOption.any fun t => t.declaredLength = (0, 10)) = true := by
      decide +kernel
    obtain ⟨f, -, found⟩ := (Option.any_eq_true _ _).mp found
    obtain ⟨t, read, declared⟩ := (Option.any_eq_true _ _).mp found
    have read := ok_of_toOption read
    exact ⟨icon, f, t, read, of_decide_eq_true declared,
      (keepsLengths_of_parse {} badge ⟨"."⟩).1 f t read⟩
  · have found : ((({} : Parser).document badge ⟨"."⟩).toOption.any fun d =>
        (d.library.getType? "Logo").map TypeNode.lengthBounds = some (0, 20)) = true := by
      rw [badge, badgeParts]
      simp only [Bytes.ofText_append]
      repeat rw [Bytes.ofText_ofList]
      decide +kernel
    obtain ⟨d, parsed, bounds⟩ := (Option.any_eq_true _ _).mp found
    have parsed := ok_of_toOption parsed
    exact ⟨d, parsed, of_decide_eq_true bounds,
      (keepsLengths_of_parse {} badge ⟨"."⟩).2.1 d parsed⟩
  · have found : ((({} : Parser).library badgeParts ⟨"."⟩).toOption.any fun l =>
        (l.getType? "Logo").map TypeNode.lengthBounds = some (0, 20)) = true := by
      rw [badgeParts]
      simp only [Bytes.ofText_append]
      repeat rw [Bytes.ofText_ofList]
      decide +kernel
    obtain ⟨l', parsed, bounds⟩ := (Option.any_eq_true _ _).mp found
    have parsed := ok_of_toOption parsed
    exact ⟨l', parsed, of_decide_eq_true bounds,
      (keepsLengths_of_parse {} badgeParts ⟨"."⟩).2.2 l' parsed⟩

/-- A file by way of another declaration sets a bound, and the one that it inherits is written. -/
theorem not_keepsLengths_of_parse
    : ¬∀ (p : Parser) (bytes : Bytes) (directory : Path) (node : Yaml.Node) (d₀ d : Document)
        (l : Library), p.settings.readNode bytes = .ok node → Decode.document node = .ok d₀
        → d₀.library.load p.settings p.source directory = .ok l
        → p.document bytes directory = .ok d
        → ∀ name t t', l.getType? name = some t → d.library.getType? name = some t'
        → t.declaredLength ≠ TypeNode.anyLength → t'.lengthBounds = t.declaredLength := by
  intro keeps
  have found : ((({} : Settings).readNode badge).toOption.any fun node =>
      (Decode.document node).toOption.any fun d₀ =>
        (d₀.library.load {} .empty ⟨"."⟩).toOption.any fun l =>
          (({} : Parser).document badge ⟨"."⟩).toOption.any fun d =>
            (l.getType? "Icon").any fun t => (d.library.getType? "Icon").any fun t' =>
              decide (t.declaredLength = (0, 10)) && decide (t'.lengthBounds = (0, 20)))
      = true := by
    rw [badge, badgeParts]
    simp only [Bytes.ofText_append]
    repeat rw [Bytes.ofText_ofList]
    decide +kernel
  obtain ⟨node, read, found⟩ := (Option.any_eq_true _ _).mp found
  obtain ⟨d₀, decoded, found⟩ := (Option.any_eq_true _ _).mp found
  obtain ⟨l, loaded, found⟩ := (Option.any_eq_true _ _).mp found
  obtain ⟨d, parsed, found⟩ := (Option.any_eq_true _ _).mp found
  obtain ⟨t, entry, found⟩ := (Option.any_eq_true _ _).mp found
  obtain ⟨t', entry', found⟩ := (Option.any_eq_true _ _).mp found
  obtain ⟨declared, written⟩ := Bool.and_eq_true_iff.mp found
  have declared := of_decide_eq_true declared
  have same := keeps {} badge ⟨"."⟩ node d₀ d l (ok_of_toOption read) (ok_of_toOption decoded)
    (ok_of_toOption loaded) (ok_of_toOption parsed) "Icon" t t' entry entry'
    (by rw [declared]; decide)
  rw [declared, of_decide_eq_true written] at same
  exact absurd same (by decide)

end Parser

end Raml
