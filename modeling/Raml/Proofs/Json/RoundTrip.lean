import Raml.Proofs.Json.Spelling

/-! A value is read back from its text, as far as it is among what is read.
-/

namespace Raml.Json

open Cursor

variable {Part : Type} {s : Selection Part} {part : Part} {j : Json} {rest : Bytes}

-----------------------------------------------------------------------------------------
-- The texts of lists and objects
-----------------------------------------------------------------------------------------

/-- Texts with commas before each of them. -/
def behindCommas (texts : List Bytes) : Bytes := texts.flatMap (byte ',' :: ·)

/-- Texts with commas between them. -/
def betweenCommas : List Bytes → Bytes
  | [] => []
  | text :: texts => text ++ behindCommas texts

/-- The bytes of texts with commas between them. -/
theorem ofText_intercalate (parts : List String)
    : Bytes.ofText (",".intercalate parts) = betweenCommas (parts.map Bytes.ofText) := by
  have comma : Bytes.ofText "," = [byte ','] := ofText_ascii [','] (by decide)
  induction parts with
  | nil =>
      rw [String.intercalate_nil]
      exact Bytes.ofText_empty
  | cons part parts ih =>
      cases parts with
      | nil => simp [betweenCommas, behindCommas]
      | cons next parts =>
          rw [String.intercalate_cons_cons, Bytes.ofText_append, Bytes.ofText_append, ih, comma]
          simp [betweenCommas, behindCommas]

theorem compactItems_eq (js : List Json) : compactItems js = js.map compact := by
  induction js with
  | nil => rfl
  | cons j js ih => rw [compactItems, ih, List.map_cons]

theorem compactMembers_eq (members : List (String × Json))
    : compactMembers members = members.map fun (key, j) => stringText key ++ ":" ++ j.compact := by
  induction members with
  | nil => rfl
  | cons member members ih => rw [compactMembers, ih, List.map_cons]

/-- The bytes of a value. -/
abbrev text (j : Json) : Bytes := Bytes.ofText j.compact

/-- A list is its items with commas between them, in brackets. -/
theorem text_arr (js : List Json)
    : text (.arr js) = byte '[' :: (betweenCommas (js.map text) ++ [byte ']']) := by
  have opening : Bytes.ofText "[" = [byte '['] := ofText_ascii ['['] (by decide)
  have closing : Bytes.ofText "]" = [byte ']'] := ofText_ascii [']'] (by decide)
  rw [text, compact, Bytes.ofText_append, Bytes.ofText_append, ofText_intercalate, compactItems_eq,
    List.map_map, opening, closing]
  rfl

/-- The bytes of a member. -/
def memberText (member : String × Json) : Bytes :=
  Bytes.ofText (stringText member.1) ++ byte ':' :: text member.2

/-- An object is its members with commas between them, in braces. -/
theorem text_obj (members : List (String × Json))
    : text (.obj members)
      = byte '\x7b' :: (betweenCommas (members.map memberText) ++ [byte '\x7d']) := by
  have colon : Bytes.ofText ":" = [byte ':'] := ofText_ascii [':'] (by decide)
  have opening : Bytes.ofText "\x7b" = [byte '\x7b'] := ofText_ascii ['\x7b'] (by decide)
  have closing : Bytes.ofText "\x7d" = [byte '\x7d'] := ofText_ascii ['\x7d'] (by decide)
  rw [text, compact, Bytes.ofText_append, Bytes.ofText_append, ofText_intercalate,
    compactMembers_eq, List.map_map, opening, closing]
  refine congrArg (fun texts => byte '\x7b' :: (betweenCommas texts ++ [byte '\x7d'])) ?_
  refine List.map_congr_left fun (key, j) _ => ?_
  simp [memberText, Bytes.ofText_append, colon]

/-- What follows the values in a list or an object. -/
theorem ends_behindCommas {closing : UInt8} (h : closing = byte ']' ∨ closing = byte '\x7d')
    (texts : List Bytes) : Ends (behindCommas texts ++ closing :: rest) := by
  cases texts with
  | nil =>
      rintro _ ⟨⟩
      exact .inr h
  | cons text texts => exact ends_comma

-----------------------------------------------------------------------------------------
-- Reading lists
-----------------------------------------------------------------------------------------

/-- A value from the start of its text, where the text is that of what it spells. -/
def Reading (s : Selection Part) (j : Json) : Prop := ∃ b more, Spells s (text j) j b more

/-- The bracket that closes a list ends it. -/
theorem yields_endList {c : Cursor} (h : c.skipBlanks.rest = byte ']' :: rest)
    : Yields c.endList fun c => c.rest = rest := by
  unfold endList
  generalize c.skipBlanks = c at *
  obtain ⟨_, p⟩ := c
  cases h
  simp only [peek?_cons, if_pos trivial, advance_cons]
  exact Yields.ok rfl

/-- Behind a comma the next item starts. -/
theorem nextItem_later {b : UInt8} {more tail : Bytes} {c : Cursor} (spells : Spells s (text j) j b more)
    (h : c.skipBlanks.rest = byte ',' :: (text j ++ tail))
    : ∃ p, c.nextItem false = .ok (some ⟨b :: more ++ tail, p⟩) := by
  unfold nextItem
  generalize c.skipBlanks = c at *
  obtain ⟨_, p⟩ := c
  cases h
  obtain ⟨q, opens⟩ := spells.opens tail (step p (byte ','))
  refine ⟨q, ?_⟩
  simp only [peek?_cons, advance_cons, opens, if_neg spells.notClosing]
  rfl

/-- The first item starts behind the bracket. -/
theorem nextItem_first {b : UInt8} {more tail : Bytes} {p : Place}
    (spells : Spells s (text j) j b more)
    : ∃ q, nextItem true ⟨text j ++ tail, p⟩ = .ok (some ⟨b :: more ++ tail, q⟩) := by
  obtain ⟨q, opens⟩ := spells.opens tail p
  refine ⟨q, ?_⟩
  simp only [nextItem, opens, peek?_cons, if_neg spells.notClosing]
  rfl

/-- No item starts at the bracket that closes the list. -/
theorem nextItem_end {c : Cursor} (first : Bool) (h : c.skipBlanks.rest = byte ']' :: rest)
    : c.nextItem first = .ok none := by
  unfold nextItem
  generalize c.skipBlanks = c at *
  obtain ⟨_, p⟩ := c
  cases h
  rfl

/-- The items of a list behind the first: by induction on the items. -/
theorem reads_later (depth : Nat) {js : List Json} (each : ∀ j ∈ js, Reading s j) (fuel index : Nat)
    {c : Cursor} (within : ItemsWithin s part (index + 1) js)
    (h : c.skipBlanks.rest = behindCommas (js.map text) ++ byte ']' :: rest)
    : Yields (items (fun index => value s depth (s.item part index)) fuel (index + 1) c)
        fun (found, c) => found = js ∧ c.rest = rest := by
  induction js generalizing fuel index c with
  | nil =>
      cases fuel with
      | zero => exact Yields.error _
      | succ fuel =>
          rw [items, nextItem_end _ h, ok_bind]
          exact (yields_endList h).bind fun c left => Yields.ok ⟨rfl, left⟩
  | cons j js ih =>
      cases fuel with
      | zero => exact Yields.error _
      | succ fuel =>
          obtain ⟨⟨b, more, spells⟩, others⟩ := List.forall_mem_cons.mp each
          obtain ⟨first, later⟩ := within
          rw [List.map_cons, behindCommas, List.flatMap_cons, List.cons_append, List.cons_append,
            List.append_assoc] at h
          obtain ⟨p, next⟩ := nextItem_later spells h
          rw [items, show (index + 1 == 0) = false from rfl, next, ok_bind]
          refine (spells.reads depth _ _ p first (ends_behindCommas (.inl rfl) _)).bind ?_
          rintro ⟨_, c'⟩ ⟨rfl, left⟩
          refine (ih others fuel (index + 1) later left).bind ?_
          rintro ⟨_, c''⟩ ⟨rfl, behind⟩
          exact Yields.ok ⟨rfl, behind⟩

/-- All items of a list, behind its bracket. -/
theorem reads_items (depth : Nat) {js : List Json} (each : ∀ j ∈ js, Reading s j) (fuel : Nat)
    (p : Place) (within : ItemsWithin s part 0 js)
    : Yields (items (fun index => value s depth (s.item part index)) fuel 0
          ⟨betweenCommas (js.map text) ++ byte ']' :: rest, p⟩)
        fun (found, c) => found = js ∧ c.rest = rest := by
  cases fuel with
  | zero => exact Yields.error _
  | succ fuel =>
      cases js with
      | nil =>
          have h : (⟨byte ']' :: rest, p⟩ : Cursor).skipBlanks.rest = byte ']' :: rest := rfl
          rw [items, List.map_nil, betweenCommas, List.nil_append, nextItem_end _ h, ok_bind]
          exact (yields_endList h).bind fun c left => Yields.ok ⟨rfl, left⟩
      | cons j js =>
          obtain ⟨⟨b, more, spells⟩, others⟩ := List.forall_mem_cons.mp each
          obtain ⟨first, later⟩ := within
          rw [List.map_cons, betweenCommas, List.append_assoc]
          obtain ⟨q, next⟩ := nextItem_first spells
          rw [items, show (0 == 0) = true from rfl, next, ok_bind]
          refine (spells.reads depth _ _ q first (ends_behindCommas (.inl rfl) _)).bind ?_
          rintro ⟨_, c⟩ ⟨rfl, left⟩
          refine (reads_later depth others fuel 0 later left).bind ?_
          rintro ⟨_, c'⟩ ⟨rfl, behind⟩
          exact Yields.ok ⟨rfl, behind⟩

-----------------------------------------------------------------------------------------
-- Reading objects
-----------------------------------------------------------------------------------------

/-- The brace that closes an object ends it. -/
theorem yields_endObject {c : Cursor} (h : c.skipBlanks.rest = byte '\x7d' :: rest)
    : Yields c.endObject fun c => c.rest = rest := by
  unfold endObject
  generalize c.skipBlanks = c at *
  obtain ⟨_, p⟩ := c
  cases h
  simp only [peek?_cons, if_pos trivial, advance_cons]
  exact Yields.ok rfl

/-- No key starts at the brace that closes the object. -/
theorem nextKey_end {c : Cursor} (first : Bool) (h : c.skipBlanks.rest = byte '\x7d' :: rest)
    : c.nextKey first = .ok none := by
  unfold nextKey
  generalize c.skipBlanks = c at *
  obtain ⟨_, p⟩ := c
  cases h
  rfl

/-- Behind a comma the next key starts. -/
theorem nextKey_later {c : Cursor} (h : c.skipBlanks.rest = byte ',' :: byte '"' :: rest)
    : ∃ p, c.nextKey false = .ok (some ⟨rest, p⟩) := by
  unfold nextKey
  generalize c.skipBlanks = c at *
  obtain ⟨_, p⟩ := c
  cases h
  exact ⟨_, rfl⟩

/-- The first key starts behind the brace. -/
theorem nextKey_first (rest : Bytes) (p : Place)
    : ∃ q, nextKey true ⟨byte '"' :: rest, p⟩ = .ok (some ⟨rest, q⟩) :=
  ⟨_, rfl⟩

/-- A key is read back, also where it is taken as it is written, if nothing in it has to be escaped.
-/
theorem reads_key {key : String} (h : s.keysAsWritten part = true → escaped key = key) (p : Place)
    : Reads ((if s.keysAsWritten part then writtenKey else string)
        ⟨Bytes.ofText (escaped key) ++ byte '"' :: rest, p⟩) key rest := by
  split
  · next written =>
      have read := reads_writtenKey key rest p
      rwa [h written] at read ⊢
  · exact reads_string key rest p

theorem yields_colon (rest : Bytes) (p : Place)
    : Yields (colon ⟨byte ':' :: rest, p⟩) fun c => c.rest = rest := by
  rw [colon, skipBlanks_cons (by decide)]
  simp only [peek?_cons, if_pos trivial, advance_cons]
  exact Yields.ok rfl

/-- What is read of the members of an object at a cursor: these members, and `rest` is left over. -/
abbrev MembersRead (s : Selection Part) (part : Part) (depth fuel : Nat) (first : Bool) (c : Cursor)
    (ms : List (String × Json)) (rest : Bytes) : Prop :=
  Yields (members (if s.keysAsWritten part then writtenKey else string)
      (fun key => (s.member? part key).map (value s depth)) fuel first c)
    fun (found, c) => found = ms ∧ c.rest = rest

/-- A member behind the opening quote of its key, and the members behind it. -/
theorem reads_member {depth fuel : Nat} {first : Bool} {c : Cursor} {p : Place} {key : String}
    {ms : List (String × Json)} {behind : Bytes}
    (next : c.nextKey first = .ok (some
      ⟨Bytes.ofText (escaped key) ++ byte '"' :: byte ':' :: (text j ++ behind), p⟩))
    (within : MembersWithin s part ((key, j) :: ms)) (spelled : Reading s j) (ends : Ends behind)
    (later : ∀ c, c.skipBlanks.rest = behind → MembersRead s part depth fuel false c ms rest)
    : MembersRead s part depth (fuel + 1) first c ((key, j) :: ms) rest := by
  obtain ⟨written, ⟨inner, selected, within⟩, -⟩ := within
  obtain ⟨b, more, spells⟩ := spelled
  unfold MembersRead
  rw [members, next, ok_bind]
  refine (reads_key written p).bind ?_
  rintro ⟨_, ⟨_, q⟩⟩ ⟨rfl, rfl⟩
  refine (yields_colon _ q).bind ?_
  rintro ⟨_, q⟩ rfl
  simp only [selected, Option.map_some]
  obtain ⟨q', opens⟩ := spells.opens behind q
  rw [← value_skipBlanks, opens]
  refine (spells.reads depth inner behind q' within ends).bind ?_
  rintro ⟨_, c⟩ ⟨rfl, left⟩
  refine (later c left).bind ?_
  rintro ⟨_, c⟩ ⟨rfl, left⟩
  exact Yields.ok ⟨rfl, left⟩

/-- The members of an object behind the first: by induction on the members. -/
theorem reads_laterMembers (depth : Nat) {ms : List (String × Json)}
    (each : ∀ m ∈ ms, Reading s m.2) (fuel : Nat) {c : Cursor} (within : MembersWithin s part ms)
    (h : c.skipBlanks.rest = behindCommas (ms.map memberText) ++ byte '\x7d' :: rest)
    : MembersRead s part depth fuel false c ms rest := by
  induction ms generalizing fuel c with
  | nil =>
      cases fuel with
      | zero => exact Yields.error _
      | succ fuel =>
          unfold MembersRead
          rw [members, nextKey_end _ h, ok_bind]
          exact (yields_endObject h).bind fun c left => Yields.ok ⟨rfl, left⟩
  | cons m ms ih =>
      cases fuel with
      | zero => exact Yields.error _
      | succ fuel =>
          obtain ⟨spelled, others⟩ := List.forall_mem_cons.mp each
          rw [List.map_cons, behindCommas, List.flatMap_cons, memberText, ofText_stringText] at h
          simp only [List.cons_append, List.append_assoc, List.nil_append] at h
          obtain ⟨p, next⟩ := nextKey_later h
          refine reads_member next within spelled (ends_behindCommas (.inr rfl) _) fun c left => ?_
          exact ih others fuel within.2.2 left

/-- All members of an object, behind its brace. -/
theorem reads_members (depth : Nat) {ms : List (String × Json)} (each : ∀ m ∈ ms, Reading s m.2)
    (fuel : Nat) (p : Place) (within : MembersWithin s part ms)
    : MembersRead s part depth fuel true
        ⟨betweenCommas (ms.map memberText) ++ byte '\x7d' :: rest, p⟩ ms rest := by
  cases fuel with
  | zero => exact Yields.error _
  | succ fuel =>
      cases ms with
      | nil =>
          have h : (⟨byte '\x7d' :: rest, p⟩ : Cursor).skipBlanks.rest = byte '\x7d' :: rest := rfl
          unfold MembersRead
          rw [members, List.map_nil, betweenCommas, List.nil_append, nextKey_end _ h, ok_bind]
          exact (yields_endObject h).bind fun c left => Yields.ok ⟨rfl, left⟩
      | cons m ms =>
          obtain ⟨spelled, others⟩ := List.forall_mem_cons.mp each
          rw [List.map_cons, betweenCommas, memberText, ofText_stringText]
          simp only [List.cons_append, List.append_assoc, List.nil_append]
          obtain ⟨q, next⟩ := nextKey_first _ p
          refine reads_member next within spelled (ends_behindCommas (.inr rfl) _) fun c left => ?_
          exact reads_laterMembers depth others fuel within.2.2 left

-----------------------------------------------------------------------------------------
-- Reading values
-----------------------------------------------------------------------------------------

/-- A list spells its value if its items spell theirs. -/
theorem spells_arr {js : List Json} (each : ∀ j ∈ js, Reading s j) : Reading s (.arr js) := by
  refine ⟨byte '[', betweenCommas (js.map text) ++ [byte ']'], ?_⟩
  rw [text_arr]
  refine Spells.of_reads (by decide) (by decide) fun depth part rest p within ends => ?_
  cases depth with
  | zero =>
      rw [List.cons_append, value_tooDeep (.inl rfl)]
      exact Yields.error _
  | succ depth =>
      rw [List.cons_append, value_bracket, List.append_assoc]
      refine (reads_items depth each _ _ within).bind ?_
      rintro ⟨_, c⟩ ⟨rfl, left⟩
      exact Yields.ok ⟨rfl, left⟩

/-- An object spells its value if its members spell theirs. -/
theorem spells_obj {ms : List (String × Json)} (each : ∀ m ∈ ms, Reading s m.2)
    : Reading s (.obj ms) := by
  refine ⟨byte '\x7b', betweenCommas (ms.map memberText) ++ [byte '\x7d'], ?_⟩
  rw [text_obj]
  refine Spells.of_reads (by decide) (by decide) fun depth part rest p within ends => ?_
  cases depth with
  | zero =>
      rw [List.cons_append, value_tooDeep (.inr rfl)]
      exact Yields.error _
  | succ depth =>
      rw [List.cons_append, value_brace, List.append_assoc]
      refine (reads_members depth each _ _ within).bind ?_
      rintro ⟨_, c⟩ ⟨rfl, left⟩
      exact Yields.ok ⟨rfl, left⟩

theorem mem_itemFloats {js : List Json} {x : Float}
    : x ∈ itemFloats js ↔ ∃ j ∈ js, x ∈ j.floats := by
  induction js with
  | nil => simp [itemFloats]
  | cons j js ih => simp [itemFloats, ih]

theorem mem_memberFloats {ms : List (String × Json)} {x : Float}
    : x ∈ memberFloats ms ↔ ∃ m ∈ ms, x ∈ m.2.floats := by
  induction ms with
  | nil => simp [memberFloats]
  | cons m ms ih => simp [memberFloats, ih]

theorem mem_itemWholes {js : List Json} {i : Int}
    : i ∈ itemWholes js ↔ ∃ j ∈ js, i ∈ j.wholes := by
  induction js with
  | nil => simp [itemWholes]
  | cons j js ih => simp [itemWholes, ih]

theorem mem_memberWholes {ms : List (String × Json)} {i : Int}
    : i ∈ memberWholes ms ↔ ∃ m ∈ ms, i ∈ m.2.wholes := by
  induction ms with
  | nil => simp [memberWholes]
  | cons m ms ih => simp [memberWholes, ih]

/-- A word is read back from its letters. -/
theorem reading_word (letter : Char) (letters : List Char)
    (ascii : (letter :: letters).all fun c => c.toNat < 128)
    (text : j.compact = String.ofList (letter :: letters))
    (h : (letter, letters, j) ∈ [('n', ['u', 'l', 'l'], .null), ('t', ['r', 'u', 'e'], .bool true),
      ('f', ['a', 'l', 's', 'e'], .bool false)])
    : Reading s j := by
  refine ⟨byte letter, letters.map byte, ?_⟩
  rw [Json.text, text, ofText_ascii _ ascii]
  exact spells_word h

/-- The text of a value spells it, if its numbers are read as they are: by induction on the size of
the value. -/
theorem reading : ∀ j : Json, (∀ x ∈ j.floats, ReadsBack x) → (∀ i ∈ j.wholes, IsWord i)
    → Reading s j
  | .null, _, _ => reading_word 'n' ['u', 'l', 'l'] (by decide) rfl (by simp)
  | .bool true, _, _ => reading_word 't' ['r', 'u', 'e'] (by decide) rfl (by simp)
  | .bool false, _, _ => reading_word 'f' ['a', 'l', 's', 'e'] (by decide) rfl (by simp)
  | .int i, _, wholes => spells_int (wholes i (by simp [Json.wholes]))
  | .float x, floats, _ => spells_float (floats x (by simp [Json.floats]))
  | .str text, _, _ => ⟨_, _, spells_string text⟩
  | .arr js, floats, wholes => by
      refine spells_arr fun j member => reading j ?_ ?_
      · exact fun x inside => floats x (mem_itemFloats.mpr ⟨j, member, inside⟩)
      · exact fun i inside => wholes i (mem_itemWholes.mpr ⟨j, member, inside⟩)
  | .obj ms, floats, wholes => by
      refine spells_obj fun m member => reading m.2 ?_ ?_
      · exact fun x inside => floats x (mem_memberFloats.mpr ⟨m, member, inside⟩)
      · exact fun i inside => wholes i (mem_memberWholes.mpr ⟨m, member, inside⟩)
termination_by j => sizeOf j
decreasing_by
  · exact Form.sizeOf_lt_of_item member
  · exact Form.sizeOf_lt_of_member member

/-- What is read of the text of a value is that value. -/
theorem eq_of_readParts (part : Part) (within : j.Within s part)
    (floats : ∀ x ∈ j.floats, ReadsBack x) (wholes : ∀ i ∈ j.wholes, IsWord i) {found : Json}
    (h : readParts s part (Bytes.ofText j.compact) = .ok found)
    : found = j := by
  obtain ⟨b, more, spells⟩ := reading (s := s) j floats wholes
  obtain ⟨⟨k, c⟩, read, checked⟩ := bind_eq_ok_iff.mp h
  obtain ⟨p, opens⟩ := spells.opens [] {}
  rw [List.append_nil] at opens
  rw [← value_skipBlanks, opens] at read
  obtain ⟨rfl, -⟩ := spells.reads _ _ [] _ within ends_nil _ read
  simp only at checked
  split at checked
  · exact (Except.ok.inj checked).symm
  · cases checked

-----------------------------------------------------------------------------------------
-- Texts byte by byte
-----------------------------------------------------------------------------------------

/-- A string as it is written. -/
def stringBytes (s : String) : Bytes :=
  byte '"' :: ((s.toList.flatMap fun c => Bytes.ofText (escapedChar c)) ++ [byte '"'])

/-- The bytes of a string are its escaped characters, between quotes. -/
theorem ofText_stringText_eq (s : String) : Bytes.ofText (stringText s) = stringBytes s := by
  rw [ofText_stringText, escaped, ofText_join, List.flatMap_map]
  rfl

mutual

/-- A value as it is written, without texts on the way: these take long to be evaluated. -/
def bytes : Json → Bytes
  | .str s => stringBytes s
  | .arr items => byte '[' :: (betweenCommas (itemBytes items) ++ [byte ']'])
  | .obj members => byte '\x7b' :: (betweenCommas (memberBytes members) ++ [byte '\x7d'])
  | j => text j

def itemBytes : List Json → List Bytes
  | [] => []
  | j :: js => j.bytes :: itemBytes js

def memberBytes : List (String × Json) → List Bytes
  | [] => []
  | (key, j) :: members => (stringBytes key ++ byte ':' :: j.bytes) :: memberBytes members

end

mutual

/-- The bytes are those of the text, by induction on the value. -/
theorem bytes_eq : ∀ j : Json, j.bytes = text j
  | .str s => (ofText_stringText_eq s).symm
  | .arr items => by rw [bytes, itemBytes_eq items, text_arr]
  | .obj members => by rw [bytes, memberBytes_eq members, text_obj]
  | .null | .bool _ | .int _ | .float _ => rfl

theorem itemBytes_eq : ∀ js : List Json, itemBytes js = js.map text
  | [] => rfl
  | j :: js => by rw [itemBytes, bytes_eq j, itemBytes_eq js, List.map_cons]

theorem memberBytes_eq : ∀ members : List (String × Json),
    memberBytes members = members.map memberText
  | [] => rfl
  | (key, j) :: members => by
      rw [memberBytes, bytes_eq j, memberBytes_eq members, List.map_cons, memberText,
        ofText_stringText_eq]

end

end Raml.Json
