import Raml.Cache
import Raml.Proofs.Cache.Agreement
import Raml.Proofs.Documents.Leaves
import Raml.Proofs.Json.RoundTrip

/-! What is written of a document is read to the last member: none of it is skipped, and none of its
whole numbers is rounded.
-/

namespace Raml

open Form Json

/-- As a part of a cache entry, all of a value is read, and none of its whole numbers is rounded. -/
structure Json.Storable (part : Form.Part) (j : Json) : Prop where
  within : j.Within Form.Part.selection part
  words : ∀ i ∈ j.wholes, IsWord i

/-- As a member of a part of a cache entry, all of a value is read. -/
def Json.StorableMember (part : Form.Part) (m : String × Json) : Prop :=
  (part = .responses → Cursor.escaped m.1 = m.1)
    ∧ ∃ inner, Form.Part.member? part m.1 = some inner ∧ m.2.Storable inner

abbrev Json.StorableMembers (part : Form.Part) (ms : Members) : Prop := ∀ m ∈ ms, StorableMember part m

variable {part : Form.Part} {key : String} {j : Json}

-----------------------------------------------------------------------------------------
-- Values
-----------------------------------------------------------------------------------------

namespace Json

/-- Members are within a selection if each is within what is selected of it. -/
theorem membersWithin_of_forall {ms : Members} (h : StorableMembers part ms)
    : MembersWithin Form.Part.selection part ms := by
  induction ms with
  | nil => trivial
  | cons m ms ih =>
      obtain ⟨⟨written, inner, known, storable⟩, rest⟩ := List.forall_mem_cons.mp h
      exact ⟨fun as => written (of_decide_eq_true as), ⟨inner, known, storable.within⟩, ih rest⟩

/-- Items are, if all of them are read alike. -/
theorem itemsWithin_of_forall {inner : Form.Part} {js : List Json}
    (items : ∀ index, Form.Part.item part index = inner) (h : ∀ j ∈ js, j.Storable inner) (index : Nat)
    : ItemsWithin Form.Part.selection part index js := by
  induction js generalizing index with
  | nil => trivial
  | cons j js ih =>
      obtain ⟨first, rest⟩ := List.forall_mem_cons.mp h
      refine ⟨?_, ih rest _⟩
      have within := first.within
      rwa [← items index] at within

theorem storable_str (s : String) : Storable part (.str s) := ⟨trivial, nofun⟩

theorem storable_bool (b : Bool) : Storable part (.bool b) := ⟨trivial, nofun⟩

theorem storable_int {i : Int} (word : IsWord i) : Storable part (.int i) :=
  ⟨trivial, fun _ member => List.mem_singleton.mp member ▸ word⟩

/-- Unsigned words are read without rounding. -/
theorem storable_uint64 (n : UInt64) : Storable part (.int n.toNat) := by
  refine storable_int (Or.inr ?_)
  have small : (n.toNat : Int) < UInt64.size := by exact_mod_cast n.toNat_lt
  rw [uint64?, if_pos ⟨Int.natCast_nonneg _, small⟩]
  rfl

/-- An object is read to the last member if its members are. -/
theorem storable_obj {ms : Members} (h : StorableMembers part ms) : Storable part (.obj ms) := by
  refine ⟨membersWithin_of_forall h, fun i member => ?_⟩
  obtain ⟨m, inside, here⟩ := mem_memberWholes.mp member
  obtain ⟨-, _, -, storable⟩ := h m inside
  exact storable.words i here

/-- A list is read to the last item if its items are. -/
theorem storable_arr {inner : Form.Part} {js : List Json}
    (items : ∀ index, Form.Part.item part index = inner) (h : ∀ j ∈ js, j.Storable inner)
    : Storable part (.arr js) := by
  refine ⟨itemsWithin_of_forall items h 0, fun i member => ?_⟩
  obtain ⟨j, inside, here⟩ := mem_itemWholes.mp member
  exact (h j inside).words i here

theorem item_whole (index : Nat) : Form.Part.item .whole index = .whole := rfl

mutual

/-- What is read as a whole is read to the last member. -/
theorem within_whole : ∀ j : Json, j.Within Form.Part.selection .whole
  | .null | .bool _ | .int _ | .float _ | .str _ => trivial
  | .arr items => itemsWithin_whole 0 items
  | .obj members => membersWithin_whole members

theorem itemsWithin_whole
    : ∀ index js, ItemsWithin Form.Part.selection .whole index js
  | _, [] => trivial
  | index, j :: js => ⟨within_whole j, itemsWithin_whole (index + 1) js⟩

theorem membersWithin_whole : ∀ ms, MembersWithin Form.Part.selection .whole ms
  | [] => trivial
  | (_, j) :: ms => ⟨nofun, ⟨.whole, rfl, within_whole j⟩, membersWithin_whole ms⟩

end

end Json

/-- A value is read as a whole. -/
theorem Value.storable_toJson (v : Value) : v.toJson.Storable .whole :=
  ⟨within_whole _, v.isWord_of_mem_wholes⟩

-----------------------------------------------------------------------------------------
-- Members
-----------------------------------------------------------------------------------------

/-- Under this key a part has a member that is read as `inner`. -/
structure Form.Part.Has (part : Form.Part) (key : String) (inner : Form.Part) : Prop where
  known : Form.Part.member? part key = some inner
  plain : part ≠ .responses := by decide

/-- A member is read to the end under a key that the part has. -/
theorem Json.StorableMember.of_has {inner : Form.Part} (has : part.Has key inner)
    (h : j.Storable inner)
    : StorableMember part (key, j) :=
  ⟨fun responses => absurd responses has.plain, inner, has.known, h⟩

/-- What is read as a whole has members under all keys. -/
theorem Form.Part.has_whole (key : String) : Form.Part.whole.Has key .whole := ⟨rfl, by decide⟩

namespace Json.StorableMembers

variable {inner : Form.Part}

theorem nil : StorableMembers part [] := nofun

/-- Members are read to the end together if they are on both sides. -/
theorem append {a b : Members} (first : StorableMembers part a) (rest : StorableMembers part b)
    : StorableMembers part (a ++ b) :=
  List.forall_mem_append.mpr ⟨first, rest⟩

/-- What may be left out is read to the end wherever it is written. The other forms of members
follow. -/
theorem optional (has : part.Has key inner) {value : Option Json}
    (h : ∀ j ∈ value, j.Storable inner)
    : StorableMembers part (Form.optional key value) := by
  intro m member
  simp only [Form.optional, Option.mem_toList, Option.map_eq_some_iff] at member
  obtain ⟨j, same, rfl⟩ := member
  exact .of_has has (h j same)

/-- What is written of something only if it is there. -/
theorem present {α : Type} {write : α → Json} (has : part.Has key inner)
    (each : ∀ a, (write a).Storable inner) (a? : Option α)
    : StorableMembers part (Form.optional key (a?.map write)) := by
  refine optional has fun j here => ?_
  obtain ⟨a, -, rfl⟩ := Option.map_eq_some_iff.mp here
  exact each a

theorem text (has : part.Has key inner) (s : String)
    : StorableMembers part (Form.text key s) := by
  unfold Form.text
  split
  · exact nil
  · exact List.forall_mem_singleton.mpr (.of_has has (storable_str s))

theorem flag (has : part.Has key inner) (default value : Bool)
    : StorableMembers part (Form.flag key default value) := by
  unfold Form.flag
  split
  · exact nil
  · exact List.forall_mem_singleton.mpr (.of_has has (storable_bool value))

theorem number (has : part.Has key inner) (default value : Int64)
    : StorableMembers part (Form.number key default value) := by
  have word : IsWord value.toInt := Or.inl (by rw [int64?_eq_some_iff.mpr rfl]; rfl)
  unfold Form.number
  split
  · exact nil
  · exact List.forall_mem_singleton.mpr (.of_has has (storable_int word))

theorem list (has : part.Has key inner) {js : List Json} (h : Storable inner (.arr js))
    : StorableMembers part (Form.list key js) := by
  unfold Form.list
  split
  · exact nil
  · exact List.forall_mem_singleton.mpr (.of_has has h)

theorem map (has : part.Has key inner) {ms : Members} (h : StorableMembers inner ms)
    : StorableMembers part (Form.map key ms) := by
  unfold Form.map
  split
  · exact nil
  · exact List.forall_mem_singleton.mpr (.of_has has (storable_obj h))

/-- A list whose items are written one by one. -/
theorem items {α : Type} {write : α → Json} (has : part.Has key .whole)
    (each : ∀ a, (write a).Storable .whole) (as : List α)
    : StorableMembers part (Form.list key (as.map write)) := by
  refine list has (storable_arr item_whole fun j member => ?_)
  obtain ⟨a, -, rfl⟩ := List.mem_map.mp member
  exact each a

theorem texts (has : part.Has key .whole) (texts : List String)
    : StorableMembers part (Form.texts key texts) :=
  items has storable_str texts

/-- A table whose values are written one by one. -/
theorem table {α : Type} {write : α → Json} {entries : List (String × α)}
    (has : ∀ key, part.Has key inner) (each : ∀ entry ∈ entries, (write entry.2).Storable inner)
    : StorableMembers part (entries.map fun (key, a) => (key, write a)) := by
  intro m member
  obtain ⟨entry, inside, rfl⟩ := List.mem_map.mp member
  exact .of_has (has entry.1) (each entry inside)

/-- Fragments are values, so they are read as a whole. -/
theorem fragment (has : part.Has key .whole) {fragment : Option Fragment}
    (sound : (Leaf.fragment fragment).Sound)
    : StorableMembers part (Form.optional key fragment) := by
  refine optional has fun j here => ?_
  obtain ⟨v, -, rfl⟩ := sound j here
  exact v.storable_toJson

end Json.StorableMembers

-----------------------------------------------------------------------------------------
-- Types
-----------------------------------------------------------------------------------------

theorem Annotation.storable_toJson (a : Annotation) : a.toJson.Storable .whole := by
  unfold toJson
  split
  · exact Value.storable_toJson _
  · exact ⟨trivial, nofun⟩

theorem Annotations.storable_members (has : part.Has "annotations" .whole)
    (annotations : Annotations)
    : StorableMembers part (Annotations.members annotations) :=
  .map has (.table Form.Part.has_whole fun entry _ => entry.2.storable_toJson)

theorem Example.storable_toJson (e : Example) : e.toJson.Storable .whole := by
  have has := Form.Part.has_whole
  have value : StorableMembers .whole (optional "value" (e.value.map Value.toJson)) :=
    .present (has _) Value.storable_toJson _
  exact storable_obj (((((StorableMembers.text (has _) _).append (.text (has _) _)).append
    (Annotations.storable_members (has _) _)).append value).append (.flag (has _) _ _) |>.append
    (.flag (has _) _ _))

/-- Declarations stand in types, which are read as a whole. -/
theorem Declaration.storable_members {kind : Kind} {d : Declaration}
    (sound : ∀ leaf ∈ d.leaves kind, leaf.Sound)
    : StorableMembers .whole d.members := by
  simp only [leaves, List.forall_mem_append, List.forall_mem_cons, List.not_mem_nil,
    false_imp_iff, implies_true, and_true] at sound
  obtain ⟨⟨⟨⟨⟨default, schema⟩, -⟩, -⟩, -⟩, facets, xml⟩ := sound
  have has := Form.Part.has_whole
  have single : StorableMembers .whole (optional "example" (d.example?.map Example.toJson)) :=
    .present (has _) Example.storable_toJson _
  have named : StorableMembers .whole
      (map "examples" (d.examples.map fun entry => (entry.1, entry.2.toJson))) :=
    .map (has _) (.table has fun entry _ => entry.2.storable_toJson)
  have front := ((StorableMembers.fragment (has "default") default).append
    (.fragment (has "schema") schema)).append (.text (has "type") d.typeName)
  have described := ((front.append single).append named).append
    (.text (has "displayName") d.displayName) |>.append (.text (has "description") d.description)
  exact ((described.append (Annotations.storable_members (has _) d.annotations)).append
    (.fragment (has "facets") facets)).append (.fragment (has "xml") xml)

/-- A type is read to the end if its properties are. -/
theorem TypeNode.storable_members_of {t : TypeNode} (sound : ∀ leaf ∈ t.ownLeaves, leaf.Sound)
    (inside : StorableMembers .whole (propertyMembers t.properties))
    : StorableMembers .whole t.members := by
  simp only [ownLeaves, List.forall_mem_append, List.forall_mem_cons, List.not_mem_nil,
    false_imp_iff, implies_true, and_true] at sound
  obtain ⟨⟨⟨-, declaration⟩, -⟩, discriminatorValue, items⟩ := sound
  have has := Form.Part.has_whole
  have bound (key : String) (n : Option UInt64) : StorableMembers .whole
      (optional key (n.map fun n => .int n.toNat)) :=
    .present (has key) storable_uint64 n
  have discriminator : StorableMembers .whole
      (optional "discriminator" (t.object.discriminator.map .str)) :=
    .present (has _) storable_str _
  have enumeration : StorableMembers .whole
      (list "enum" (t.scalar.enumeration.map Value.toJson)) :=
    .items (has _) Value.storable_toJson _
  have kind : StorableMembers .whole
      (if t.kind = .any then [] else [("nativeType", .str t.kind.name)]) := by
    split
    · exact .nil
    · exact List.forall_mem_singleton.mpr (.of_has (has _) (storable_str _))
  have object := (((bound "minProperties" t.object.minProperties).append
    (bound "maxProperties" t.object.maxProperties)).append
    (.flag (has "additionalProperties") true t.object.additionalProperties)).append discriminator
    |>.append (.fragment (has "discriminatorValue") discriminatorValue)
  have array := ((StorableMembers.flag (has "uniqueItems") false t.array.uniqueItems).append
    (.fragment (has "items") items)).append (.number (has "minItems") 0 t.array.minItems)
    |>.append (.number (has "maxItems") unbounded t.array.maxItems)
  have texts := (enumeration.append (.text (has "pattern") t.string.pattern)).append array
    |>.append (.texts (has "fileTypes") t.file.fileTypes)
  have facets := ((texts.append (.number (has "minLength") 0 t.lengthBounds.1)).append
    (.number (has "maxLength") unbounded t.lengthBounds.2)).append kind
  rw [members_eq]
  exact (((Declaration.storable_members declaration).append (.map (has _) inside)).append
    object).append facets

mutual

/-- By induction on types and their properties. -/
theorem TypeNode.storable_members
    : ∀ t : TypeNode, (∀ leaf ∈ t.leaves, leaf.Sound) → StorableMembers .whole t.members
  | ⟨_, ⟨properties, _, _, _, _, _⟩, _, _, _, _, _, _, _, _⟩, sound => by
      simp only [TypeNode.leaves, List.forall_mem_append, List.forall_mem_cons] at sound
      exact TypeNode.storable_members_of sound.1 (storable_propertyMembers properties sound.2.2)

theorem Property.storable_members (key : String)
    : ∀ p : Property, (∀ leaf ∈ p.leaves key, leaf.Sound) → StorableMembers .whole p.members
  | ⟨type, _, _⟩, sound => by
      have inside := TypeNode.storable_members type (List.forall_mem_cons.mp sound).2
      exact inside.append (.flag (Form.Part.has_whole _) _ _)

theorem storable_propertyMembers
    : ∀ properties : List (String × Property), (∀ leaf ∈ propertyLeaves properties, leaf.Sound)
      → StorableMembers .whole (propertyMembers properties)
  | [], _ => nofun
  | (key, p) :: properties, sound => by
      obtain ⟨first, rest⟩ := List.forall_mem_append.mp sound
      have own := Property.storable_members key p first
      have others := storable_propertyMembers properties rest
      exact List.forall_mem_cons.mpr ⟨.of_has (Form.Part.has_whole key) (storable_obj own), others⟩

end

/-- Properties stand under keys that are read as a whole. -/
theorem Properties.storable_members {properties : Properties}
    (sound : ∀ leaf ∈ Properties.leaves properties, leaf.Sound) (has : part.Has key .whole)
    : StorableMembers part (map key (propertyMembers properties)) :=
  .map has (storable_propertyMembers properties (List.forall_mem_cons.mp sound).2)

theorem TypeNode.storable_toJson {t : TypeNode} (sound : ∀ leaf ∈ t.leaves, leaf.Sound)
    : t.toJson.Storable .whole :=
  storable_obj (t.storable_members sound)

/-- An object that holds a table whose values are written one by one. -/
theorem storable_table {α : Type} {write : α → Json} {leaves : α → List Leaf}
    {entries : List (String × α)} {table inner : Form.Part} (has : part.Has key table)
    (each : ∀ a, (∀ leaf ∈ leaves a, leaf.Sound) → (write a).Storable inner)
    (sound : ∀ leaf ∈ entries.flatMap fun entry => leaves entry.2, leaf.Sound)
    (hasEach : ∀ key, table.Has key inner)
    : StorableMembers part (map key (entries.map fun (name, a) => (name, write a))) := by
  refine .map has (.table hasEach fun entry member => each entry.2 fun leaf here => ?_)
  exact sound leaf (List.mem_flatMap.mpr ⟨entry, member, here⟩)

-----------------------------------------------------------------------------------------
-- Methods and resources
-----------------------------------------------------------------------------------------

/-- Bodies are types, which are read as a whole. -/
theorem Bodies.storable_members {bodies : Bodies}
    (sound : ∀ leaf ∈ Bodies.leaves bodies, leaf.Sound) (has : part.Has "body" .whole)
    : StorableMembers part (Bodies.members bodies) :=
  storable_table has (fun _ => TypeNode.storable_toJson) (List.forall_mem_cons.mp sound).2
    Form.Part.has_whole

/-- A response is read by its fields. -/
theorem Response.storable_toJson {r : Response} (sound : ∀ leaf ∈ r.leaves, leaf.Sound)
    : r.toJson.Storable .response := by
  simp only [leaves, List.forall_mem_append] at sound
  obtain ⟨⟨-, headers⟩, bodies⟩ := sound
  exact storable_obj ((((StorableMembers.text ⟨rfl, by decide⟩ _).append
    (Annotations.storable_members ⟨rfl, by decide⟩ _)).append
    (Properties.storable_members headers ⟨rfl, by decide⟩)).append
    (Bodies.storable_members bodies ⟨rfl, by decide⟩))

/-- Digits are written as they are. -/
theorem escapedChar_digit {c : Char} (h : c.isDigit = true) : escapedChar c = c.toString := by
  obtain ⟨low, -⟩ := Char.isDigit_iff_toNat.mp h
  have bound : 48 ≤ c.toNat := low
  unfold escapedChar
  split
  case h_6 =>
    rw [if_neg (by omega), if_neg (by omega), if_neg (by omega)]
  all_goals exact absurd h (by decide)

/-- Digits are written as they are. -/
theorem escaped_of_digits {s : String} (h : ∀ c ∈ s.toList, c.isDigit = true)
    : Cursor.escaped s = s := by
  rw [Cursor.escaped, List.map_congr_left fun c member => escapedChar_digit (h c member)]
  have join (cs : List Char) : String.join (cs.map Char.toString) = String.ofList cs := by
    induction cs with
    | nil => rfl
    | cons c cs ih => simp [String.join_cons, ih]
  rw [join, String.ofList_toList]

/-- So the key of a response looks the same before it is unescaped, which is how it is compared. -/
theorem escaped_status (status : UInt16)
    : Cursor.escaped (toString status.toNat) = toString status.toNat := by
  apply escaped_of_digits
  rw [Nat.toString_eq_repr, Nat.repr_eq_ofList_toDigits, String.toList_ofList]
  exact fun c member => Nat.isDigit_of_mem_toDigits (by decide) (by decide) member

theorem Responses.storable_members {responses : Responses}
    (sound : ∀ leaf ∈ Responses.leaves responses, leaf.Sound)
    : StorableMembers .responses (responseMembers responses) := by
  obtain ⟨-, each⟩ := List.forall_mem_cons.mp sound
  intro m member
  obtain ⟨⟨status, r⟩, inside, rfl⟩ := List.mem_map.mp member
  refine ⟨fun _ => escaped_status status, .response, rfl, Response.storable_toJson ?_⟩
  exact fun leaf here => each leaf (List.mem_flatMap.mpr ⟨_, inside, here⟩)

/-- What is read to the last member in parts is so as a whole. -/
theorem Json.Storable.whole (h : j.Storable part) : j.Storable .whole := ⟨within_whole j, h.words⟩

/-- Methods and traits have members in common. Those of traits are read as wholes. -/
theorem Method.storable_members_of {m : Method} {results : Form.Part}
    (sound : ∀ leaf ∈ m.leaves, leaf.Sound)
    (has : ∀ key ∈ Form.Part.method.fieldNames, key ≠ "responses" → part.Has key .whole)
    (hasResults : part.Has "responses" results)
    (responses : StorableMembers results (responseMembers m.responses))
    (uses : ∀ j ∈ traitItems m.is, j.Storable .whole)
    : StorableMembers part m.members := by
  obtain ⟨displayName, description, annotations, queryParameters, headers, queryString, _, bodies,
    protocols, is, securedBy, _⟩ := m
  simp only [leaves, List.forall_mem_append, List.forall_mem_cons, List.not_mem_nil, false_imp_iff,
    implies_true, and_true] at sound
  obtain ⟨⟨⟨⟨⟨⟨-, parameters⟩, others⟩, query, -⟩, bodied⟩, -⟩, secured⟩ := sound
  have has (key : String) (known : key ∈ Form.Part.method.fieldNames := by decide)
      (other : key ≠ "responses" := by decide) : part.Has key .whole := has key known other
  have front := ((StorableMembers.text (has "displayName") displayName).append
    (.text (has "description") description)).append
    (Annotations.storable_members (has "annotations") annotations)
  have parts := ((front.append
    (Properties.storable_members parameters (has "queryParameters"))).append
    (Properties.storable_members others (has "headers"))).append
    (.fragment (has "queryString") query)
  have rest := ((parts.append (.map hasResults responses)).append
    (Bodies.storable_members bodied (has "body"))).append (.texts (has "protocols") protocols)
  exact (rest.append (.list (has "is") (storable_arr item_whole uses))).append
    (.fragment (has "securedBy") secured)

mutual

/-- By induction on traits and the methods in them. -/
theorem Trait.storable_members
    : ∀ t : Trait, (∀ leaf ∈ t.leaves, leaf.Sound) → StorableMembers .whole t.members
  | ⟨reference, ⟨_, _, _, _, _, _, responses, _, _, is, _, _⟩, usage, resourcePath, resourcePathName,
      methodName, _⟩, sound => by
      simp only [Trait.leaves] at sound
      have parts := sound
      simp only [Method.leaves, List.forall_mem_append, List.forall_mem_cons] at parts
      have has := Form.Part.has_whole
      have results : StorableMembers .whole (responseMembers responses) := by
        intro m member
        obtain ⟨-, _, -, storable⟩ := Responses.storable_members parts.1.1.1.2.2 m member
        exact .of_has (has m.1) storable.whole
      have method := Method.storable_members_of sound (fun key _ _ => has key) (has _) results
        (storable_traitItems is parts.1.2)
      exact (((((StorableMembers.text (has "name") reference).append method).append
        (.text (has "usage") usage)).append (.text (has "resourcePath") resourcePath)).append
        (.text (has "resourcePathName") resourcePathName)).append
        (.text (has "methodName") methodName)

theorem storable_traitItems
    : ∀ traits : List Trait, (∀ leaf ∈ traitLeaves traits, leaf.Sound)
      → ∀ j ∈ traitItems traits, j.Storable .whole
  | [], _ => nofun
  | t :: traits, sound => by
      obtain ⟨first, rest⟩ := List.forall_mem_append.mp sound
      have own := Trait.storable_members t first
      have others := storable_traitItems traits rest
      exact List.forall_mem_cons.mpr ⟨storable_obj own, others⟩

end

theorem storable_uses {traits : List Trait} (sound : ∀ leaf ∈ traitLeaves traits, leaf.Sound)
    (has : part.Has key .whole)
    : StorableMembers part (list key (traitItems traits)) :=
  .list has (storable_arr item_whole (storable_traitItems traits sound))

/-- A method of a resource is read by its fields, other than one in a trait. -/
theorem Method.storable_toJson {m : Method} (sound : ∀ leaf ∈ m.leaves, leaf.Sound)
    : m.toJson.Storable .method := by
  have parts := sound
  simp only [leaves_eq, List.forall_mem_append, List.forall_mem_cons] at parts
  refine storable_obj (storable_members_of sound ?_ ⟨rfl, by decide⟩
    (Responses.storable_members parts.1.1.1.2.2) (storable_traitItems m.is parts.1.2))
  have known : ∀ key ∈ Form.Part.method.fieldNames, key ≠ "responses"
      → Form.Part.member? .method key = some .whole := by decide
  exact fun key member other => ⟨known key member other, by decide⟩

/-- A resource is read to the end if those below it are. -/
theorem Resource.storable_toJson_of {r : Resource} (sound : ∀ leaf ∈ r.leaves, leaf.Sound)
    (inside : StorableMembers .resources (resourceMembers r.resources))
    : r.toJson.Storable .resource := by
  obtain ⟨displayName, description, annotations, methods, is, type, securedBy, uriParameters,
    resources⟩ := r
  simp only [leaves, methodLeaves, List.forall_mem_append, List.forall_mem_cons, List.not_mem_nil,
    false_imp_iff, implies_true, and_true] at sound
  obtain ⟨⟨⟨⟨⟨-, -, each⟩, uses⟩, typed, secured⟩, parameters⟩, -⟩ := sound
  have has (key : String) {inner : Form.Part}
      (known : Form.Part.member? .resource key = some inner := by rfl)
      : Form.Part.resource.Has key inner := ⟨known, by decide⟩
  have front := ((StorableMembers.text (has "displayName") displayName).append
    (.text (has "description") description)).append
    (Annotations.storable_members (has "annotations") annotations)
  have table : StorableMembers .resource (map "methods" (methods.map fun entry =>
      (entry.1, entry.2.toJson))) :=
    storable_table (has "methods") (fun _ => Method.storable_toJson) each fun _ => ⟨rfl, by decide⟩
  have own := (front.append table).append (storable_uses uses (has "is"))
  have parts := (own.append (.fragment (has "type") typed)).append
    (.fragment (has "securedBy") secured)
  exact storable_obj ((parts.append
    (Properties.storable_members parameters (has "uriParameters"))).append
    (.map (has "resources") inside))

mutual

/-- By induction on resources and those below them. -/
theorem Resource.storable_toJson
    : ∀ r : Resource, (∀ leaf ∈ r.leaves, leaf.Sound) → r.toJson.Storable .resource
  | ⟨_, _, _, _, _, _, _, _, resources⟩, sound => by
      refine Resource.storable_toJson_of sound (storable_resourceMembers resources ?_)
      simp only [Resource.leaves, List.forall_mem_append, List.forall_mem_cons] at sound
      exact sound.2.2

theorem storable_resourceMembers
    : ∀ resources : List (String × Resource), (∀ leaf ∈ resourceLeaves resources, leaf.Sound)
      → StorableMembers .resources (resourceMembers resources)
  | [], _ => nofun
  | (key, r) :: resources, sound => by
      obtain ⟨first, rest⟩ := List.forall_mem_append.mp sound
      have own := Resource.storable_toJson r first
      have others := storable_resourceMembers resources rest
      exact List.forall_mem_cons.mpr ⟨.of_has ⟨rfl, by decide⟩ own, others⟩

end

-----------------------------------------------------------------------------------------
-- Libraries and documents
-----------------------------------------------------------------------------------------

theorem Trait.storable_toJson {t : Trait} (sound : ∀ leaf ∈ t.leaves, leaf.Sound)
    : t.toJson.Storable .whole :=
  storable_obj (t.storable_members sound)

theorem AnnotationType.storable_toJson {a : AnnotationType} (sound : ∀ leaf ∈ a.leaves, leaf.Sound)
    : a.toJson.Storable .whole := by
  have type := a.type.storable_members (List.forall_mem_cons.mp sound).2
  exact storable_obj (type.append (.texts (Form.Part.has_whole _) _))

/-- Libraries have members in common with documents. -/
theorem Library.storable_members_of {l : Library} (sound : ∀ leaf ∈ l.ownLeaves, leaf.Sound)
    (has : ∀ key ∈ ["usage", "schemas", "types", "traits", "resourceTypes", "annotationTypes",
      "annotations", "securitySchemes", "uses"], part.Has key .whole)
    (inside : StorableMembers .whole (useMembers l.uses))
    : StorableMembers part l.members := by
  have has (key : String) (known : key ∈ ["usage", "schemas", "types", "traits", "resourceTypes",
    "annotationTypes", "annotations", "securitySchemes", "uses"] := by decide)
    : part.Has key .whole := has key known
  simp only [ownLeaves, Types.leaves, Traits.leaves, AnnotationTypes.leaves, List.forall_mem_append,
    List.forall_mem_cons, List.not_mem_nil, false_imp_iff, implies_true, and_true] at sound
  obtain ⟨⟨⟨⟨⟨schemas, -, types⟩, -, traits⟩, resourceTypes, -, declared⟩, -⟩, securitySchemes, -⟩ :=
    sound
  have typeTable : StorableMembers part (map "types" (l.types.map fun entry =>
      (entry.1, entry.2.toJson))) :=
    storable_table (has "types") (fun _ => TypeNode.storable_toJson) types Form.Part.has_whole
  have traitTable : StorableMembers part (map "traits" (l.traits.map fun entry =>
      (entry.1, entry.2.toJson))) :=
    storable_table (has "traits") (fun _ => Trait.storable_toJson) traits Form.Part.has_whole
  have declaredTable : StorableMembers part (map "annotationTypes" (l.annotationTypes.map
      fun entry => (entry.1, entry.2.toJson))) :=
    storable_table (has "annotationTypes") (fun _ => AnnotationType.storable_toJson) declared
      Form.Part.has_whole
  have front := ((StorableMembers.text (has "usage") l.usage).append
    (.fragment (has "schemas") schemas)).append typeTable
  have named := (front.append traitTable).append (.fragment (has "resourceTypes") resourceTypes)
  have all := (named.append declaredTable).append
    (Annotations.storable_members (has "annotations") l.annotations)
  rw [members_eq]
  exact (all.append (.fragment (has "securitySchemes") securitySchemes)).append
    (.map (has "uses") inside)

mutual

/-- By induction on libraries and those that they use, which are read as a whole. -/
theorem Library.storable_members
    : ∀ l : Library, (∀ entry ∈ l.leaves, entry.2.Sound) → StorableMembers .whole l.members
  | ⟨_, _, _, _, _, _, _, _, uses, _⟩, sound => by
      simp only [Library.leaves, List.forall_mem_append, List.forall_mem_map] at sound
      exact Library.storable_members_of sound.1 (fun key _ => Form.Part.has_whole key)
        (storable_useMembers uses sound.2)

theorem Use.storable_toJson
    : ∀ use : Use, (∀ entry ∈ use.leaves, entry.2.Sound) → use.toJson.Storable .whole
  | .external path, _ => storable_str path
  | .loaded library, sound => storable_obj (Library.storable_members library sound)

theorem storable_useMembers
    : ∀ uses : List (String × Use), (∀ entry ∈ useLeaves uses, entry.2.Sound)
      → StorableMembers .whole (useMembers uses)
  | [], _ => nofun
  | (name, use) :: uses, sound => by
      obtain ⟨first, rest⟩ := List.forall_mem_append.mp sound
      have own := Use.storable_toJson use first
      have others := storable_useMembers uses rest
      exact List.forall_mem_cons.mpr ⟨.of_has (Form.Part.has_whole name) own, others⟩

end

theorem DocumentationItem.storable_toJson (d : DocumentationItem)
    : d.toJson.Storable .documentationItem := by
  refine storable_obj (List.forall_mem_cons.mpr ⟨?_, List.forall_mem_singleton.mpr ?_⟩)
  · exact .of_has ⟨rfl, by decide⟩ (storable_str d.title)
  · exact .of_has ⟨rfl, by decide⟩ (storable_str d.content)

/-- The members of a document's own library are read among those of the document. -/
theorem Library.storable_documentMembers {l : Library} (sound : ∀ entry ∈ l.leaves, entry.2.Sound)
    : StorableMembers .document l.members := by
  have parts := sound
  simp only [leaves_eq, List.forall_mem_append, List.forall_mem_map] at parts
  refine storable_members_of parts.1 ?_ (storable_useMembers l.uses parts.2)
  have known : ∀ key ∈ ["usage", "schemas", "types", "traits", "resourceTypes", "annotationTypes",
      "annotations", "securitySchemes", "uses"], Form.Part.member? .document key = some .whole := by
    decide
  exact fun key member => ⟨known key member, by decide⟩

/-- So a sound document is read to the last member. -/
theorem Document.storable_toJson {d : Document} (sound : ∀ entry ∈ d.leaves, entry.2.Sound)
    : d.toJson.Storable .document := by
  simp only [leaves, outerLeaves, List.forall_mem_append, List.forall_mem_cons, List.map_append,
    List.map_cons, List.forall_mem_map, Resources.leaves] at sound
  obtain ⟨library, parameters, secured, -, resources⟩ := sound
  have has (key : String) {inner : Form.Part}
      (known : Form.Part.member? .document key = some inner := by rfl)
      : Form.Part.document.Has key inner := ⟨known, by decide⟩
  have title : StorableMembers .document [("title", .str d.title)] :=
    List.forall_mem_singleton.mpr (.of_has (has "title") (storable_str d.title))
  have documentation : StorableMembers .document
      (list "documentation" (d.documentation.map DocumentationItem.toJson)) := by
    refine .list (has "documentation") (storable_arr (fun _ => rfl) fun j member => ?_)
    obtain ⟨item, -, rfl⟩ := List.mem_map.mp member
    exact item.storable_toJson
  have front := ((title.append (.text (has "description") d.description)).append
    (.text (has "version") d.version)).append (.text (has "baseUri") d.baseUri)
  have own := ((front.append
    (Properties.storable_members parameters (has "baseUriParameters"))).append
    (.texts (has "protocols") d.protocols)).append (.texts (has "mediaType") d.mediaType)
  have rest := ((own.append documentation).append
    (.fragment (has "securedBy") secured)).append (Library.storable_documentMembers library)
  exact storable_obj (rest.append
    (.map (has "resources") (storable_resourceMembers d.resources resources)))

end Raml
