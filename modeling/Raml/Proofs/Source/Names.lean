import Mathlib.Data.List.Nodup
import Mathlib.Data.String.Basic
import Raml.Proofs.Source.Tree

/-! Relative paths as the names that they consist of.

A path may be spelled with single dots and with slashes that say nothing. Where no part of it leads
back up, its names are all that it says.
-/

namespace Raml

/-- A text that an entry of a directory can be called by. -/
structure IsName (s : String) : Prop where
  some : s ≠ ""
  here : s ≠ "."
  up : s ≠ ".."
  slash : '/' ∉ s.toList
  zero : ∀ c ∈ s.toList, c.toNat ≠ 0
  short : s.utf8ByteSize ≤ FileTree.longestName

instance (s : String) : Decidable (IsName s) :=
  -- Of all characters, only those of the text are looked at.
  have : Decidable (∀ c ∈ s.toList, c.toNat ≠ 0) := List.decidableBAll (·.toNat ≠ 0) s.toList
  decidable_of_iff
    (s ≠ "" ∧ s ≠ "." ∧ s ≠ ".." ∧ '/' ∉ s.toList ∧ (∀ c ∈ s.toList, c.toNat ≠ 0)
      ∧ s.utf8ByteSize ≤ FileTree.longestName)
    ⟨fun h => ⟨h.1, h.2.1, h.2.2.1, h.2.2.2.1, h.2.2.2.2.1, h.2.2.2.2.2⟩,
      fun h => ⟨h.some, h.here, h.up, h.slash, h.zero, h.short⟩⟩

/-- No part of what has been split holds what it was split at. -/
theorem not_mem_of_mem_splitOn {c : Char} {part cs : List Char} (h : part ∈ cs.splitOn c)
    : c ∉ part := by
  induction cs generalizing part with
  | nil =>
      rw [List.splitOn_nil, List.mem_singleton] at h
      simp [h]
  | cons other cs ih =>
      rw [List.splitOn_cons_eq_if_modifyHead] at h
      split at h
      · rcases List.mem_cons.mp h with rfl | later
        · exact List.not_mem_nil
        · exact ih later
      · rename_i different
        obtain ⟨first, rest, split⟩ := List.exists_cons_of_ne_nil (List.splitOn_ne_nil c cs)
        rw [split] at h ih
        rcases List.mem_cons.mp h with rfl | later
        · have apart : c ≠ other := fun same => different (by simp [same])
          exact List.not_mem_cons_of_ne_of_not_mem apart (ih List.mem_cons_self)
        · exact ih (List.mem_cons_of_mem _ later)

namespace Path

/-- Whether a segment of a path says nothing. -/
def isBlank (s : String) : Bool := s = "" || s = "."

theorem isBlank_iff {s : String} : isBlank s = true ↔ s = "" ∨ s = "." := by
  simp [isBlank]

theorem isBlank_of_isName {s : String} (h : IsName s) : isBlank s = false := by
  simp [isBlank, h.some, h.here]

/-- The names in a path, in order. -/
def names (p : Path) : List String := p.segments.filter fun s => !isBlank s

/-- The path that consists of names. -/
def ofNames (names : List String) : Path := ⟨"/".intercalate names⟩

/-- The path starts where relative paths start, and no part of it leads back up. -/
structure Plain (p : Path) : Prop where
  relative : p.isAbsolute = false
  forward : ".." ∉ p.segments

variable {p : Path} {s name : String}

-----------------------------------------------------------------------------------------
-- Segments
-----------------------------------------------------------------------------------------

/-- Even an empty path has a segment. -/
theorem segments_ne_nil (p : Path) : p.segments ≠ [] := by
  simp [segments, List.splitOn_ne_nil]

/-- No segment has a slash in it. -/
theorem slash_not_mem_of_mem_segments (h : s ∈ p.segments) : '/' ∉ s.toList := by
  obtain ⟨cs, member, rfl⟩ := List.mem_map.mp h
  rw [String.toList_ofList]
  exact not_mem_of_mem_splitOn member

/-- Names without slashes are the segments of the path that they make up. -/
theorem segments_ofNames {names : List String} (some : names ≠ [])
    (plain : ∀ s ∈ names, '/' ∉ s.toList)
    : (ofNames names).segments = names := by
  have text : (ofNames names).text.toList = ['/'].intercalate (names.map String.toList) := by
    rw [ofNames, String.toList_intercalate]
    rfl
  rw [segments, text, List.splitOn_intercalate '/' (by simpa using plain) (by simpa using some)]
  simp [Function.comp_def]

/-- Paths with the same segments are the same. -/
theorem eq_of_segments {q : Path} (h : p.segments = q.segments) : p = q := by
  have text : p.text = q.text := by
    rw [← p.intercalate_segments, h, q.intercalate_segments]
  exact congrArg Path.mk text

/-- A path that another one follows behind a slash. -/
theorem segments_slash {q : Path} {text : String} (h : q.text = p.text ++ "/" ++ text)
    (plain : '/' ∉ text.toList)
    : q.segments = p.segments ++ [text] := by
  have split : q.text.toList = p.text.toList ++ '/' :: text.toList := by simp [h]
  rw [segments, split, List.splitOn_append_cons_self, List.splitOn_eq_singleton plain]
  simp [segments]

/-- To end with a slash is to be something with a slash behind it. -/
theorem endsWith_slash_iff : p.text.endsWith "/" = true ↔ ∃ lead, p.text = lead ++ "/" := by
  rw [String.endsWith, String.Slice.endsWith_string_iff]
  constructor
  · rintro ⟨lead, split⟩
    refine ⟨String.ofList lead, String.toList_injective ?_⟩
    simpa using split.symm
  · rintro ⟨lead, split⟩
    exact ⟨lead.toList, by simp [split]⟩

/-- A path is absolute if nothing stands before its first slash. -/
theorem isAbsolute_iff : p.isAbsolute = true ↔ ∃ rest, rest ≠ [] ∧ p.segments = "" :: rest := by
  rw [isAbsolute, String.startsWith_string_iff]
  constructor
  · rintro ⟨rest, split⟩
    refine ⟨(rest.splitOn '/').map String.ofList, by simp [List.splitOn_ne_nil], ?_⟩
    have behind : p.text.toList = [] ++ '/' :: rest := split.symm
    rw [segments, behind, List.splitOn_append_cons_self]
    rfl
  · rintro ⟨rest, some, split⟩
    refine ⟨("/".intercalate rest).toList, ?_⟩
    rw [← p.intercalate_segments, split]
    have behind := String.intercalate_append_of_ne_nil (s := "/") (List.cons_ne_nil "" []) some
    simpa using (congrArg String.toList behind).symm

namespace Plain

/-- A plain path that says anything starts with something. -/
theorem first (plain : p.Plain) (some : p.text ≠ "")
    : ∃ first rest, p.segments = first :: rest ∧ first ≠ "" := by
  obtain ⟨first, rest, split⟩ := List.exists_cons_of_ne_nil p.segments_ne_nil
  refine ⟨first, rest, split, ?_⟩
  rintro rfl
  cases rest with
  | nil =>
      rw [← p.intercalate_segments, split] at some
      exact some rfl
  | cons next rest =>
      have absolute := isAbsolute_iff.mpr ⟨_, List.cons_ne_nil next rest, split⟩
      cases plain.relative.symm.trans absolute

/-- Without steps back up, what a path says are its names. -/
theorem filterMap_innerPart? {segments : List String} (forward : ".." ∉ segments)
    : segments.filterMap innerPart? = (segments.filter fun s => !isBlank s).map .name := by
  induction segments with
  | nil => rfl
  | cons s segments ih =>
      have here : ".." ≠ s := List.ne_of_not_mem_cons forward
      have rest := List.not_mem_of_not_mem_cons forward
      by_cases blank : s = "" ∨ s = "."
      · simp [innerPart?, blank, isBlank_iff.mpr blank, ih rest]
      · have named : isBlank s = false := Bool.eq_false_iff.mpr fun h => blank (isBlank_iff.mp h)
        simp [innerPart?, blank, named, Ne.symm here, ih rest]

/-- What a plain path says: that it starts here, if it does, and its names. -/
theorem parts_eq (plain : p.Plain)
    : p.parts = (if p.segments.head? = some "." then [.here] else []) ++ p.names.map .name := by
  have forward := plain.forward
  rw [parts, names]
  split
  · rename_i none
    exact absurd none p.segments_ne_nil
  · rename_i rest split
    cases rest with
    | nil => simp [split, isBlank]
    | cons next rest =>
        have absolute := isAbsolute_iff.mpr ⟨_, List.cons_ne_nil next rest, split⟩
        cases plain.relative.symm.trans absolute
  · rename_i rest split
    rw [split] at forward
    rw [split, filterMap_innerPart? (List.not_mem_of_not_mem_cons forward)]
    simp [isBlank]
  · rename_i here
    rw [filterMap_innerPart? forward]
    have elsewhere : p.segments.head? ≠ some "." := by
      intro first
      obtain ⟨rest, split⟩ := List.head?_eq_some_iff.mp first
      exact here rest split
    rw [if_neg elsewhere]
    rfl

/-- Without what says nothing, a plain path consists of its names. -/
theorem normal_eq (plain : p.Plain) : p.normal = ofNames p.names := by
  have named : p.parts.filter (· ≠ .here) = p.names.map .name := by
    rw [plain.parts_eq, List.filter_append]
    split <;> simp
  rw [normal, named]
  cases p.names with
  | nil => rfl
  | cons name names => simp [ofParts, ofNames, Part.text, Function.comp_def]

end Plain

-----------------------------------------------------------------------------------------
-- Paths that consist of names
-----------------------------------------------------------------------------------------

/-- Texts that may stand between slashes and say something are the names of their path. -/
theorem names_ofNames {names : List String} (named : ∀ s ∈ names, isBlank s = false)
    (slash : ∀ s ∈ names, '/' ∉ s.toList)
    : (ofNames names).names = names := by
  cases names with
  | nil => rfl
  | cons first rest =>
      rw [Path.names, segments_ofNames (List.cons_ne_nil _ _) slash]
      exact List.filter_eq_self.mpr fun s member => by simp [named s member]

/-- The names in a path are those of its normal path. -/
theorem names_ofNames_names (p : Path) : (ofNames p.names).names = p.names := by
  refine names_ofNames (fun s member => ?_) fun s member => ?_
  · simpa using (List.mem_filter.mp member).2
  · exact slash_not_mem_of_mem_segments (List.mem_filter.mp member).1

section OfNames

variable {names : List String} (valid : ∀ s ∈ names, IsName s)

include valid

/-- The names of the path that names make up are these names. -/
theorem names_ofNames_of_isName : (ofNames names).names = names :=
  names_ofNames (fun s member => isBlank_of_isName (valid s member)) fun s member =>
    (valid s member).slash

/-- A path of names is plain. -/
theorem plain_ofNames : (ofNames names).Plain := by
  cases names with
  | nil => exact ⟨rfl, by decide⟩
  | cons first rest =>
      have split := segments_ofNames (List.cons_ne_nil first rest)
        fun s member => (valid s member).slash
      refine ⟨?_, ?_⟩
      · by_contra absolute
        obtain ⟨_, -, blank⟩ := isAbsolute_iff.mp (Bool.of_not_eq_false absolute)
        rw [split] at blank
        exact (valid first List.mem_cons_self).some (List.cons.inj blank).1
      · rw [split]
        exact fun member => (valid _ member).up rfl

/-- A path of names is in normal form. -/
theorem normal_ofNames : (ofNames names).normal = ofNames names := by
  rw [(plain_ofNames valid).normal_eq, names_ofNames_of_isName valid]

/-- Names that lead to a file are told from any path that consists of the same. -/
theorem names_eq_of_ofNames (same : ofNames names = ofNames p.names) : names = p.names := by
  rw [← names_ofNames_of_isName valid, same, names_ofNames_names]

/-- Names are all that is in the path that consists of them. -/
theorem parts_ofNames : (ofNames names).parts = names.map .name := by
  rw [(plain_ofNames valid).parts_eq, names_ofNames_of_isName valid]
  cases names with
  | nil => rfl
  | cons first rest =>
      have split := segments_ofNames (List.cons_ne_nil first rest)
        fun s member => (valid s member).slash
      rw [split, List.head?_cons, if_neg fun same => ?_]
      · rfl
      · exact (valid first List.mem_cons_self).here (Option.some.inj same)

/-- The file that names lead to is called by the last of them. -/
theorem fileName?_ofNames (last : IsName name)
    : (ofNames (names ++ [name])).fileName? = some name := by
  have all : ∀ s ∈ names ++ [name], IsName s :=
    List.forall_mem_append.mpr ⟨valid, List.forall_mem_singleton.mpr last⟩
  rw [fileName?, parts_ofNames all, List.map_append, List.map_singleton, List.getLast?_concat]

end OfNames

/-- A name says something, so it is not trimmed. -/
theorem trimEnd_of_isName {segments : List String} (h : IsName s)
    : trimEnd (s :: segments) = s :: segments := by
  cases segments with
  | nil => rfl
  | cons next segments => simp [trimEnd, h.some, h.here]

/-- The directory of a path is what its other names lead to. -/
theorem parent?_ofNames {names : List String} (valid : ∀ s ∈ names, IsName s) (last : IsName name)
    : (ofNames (names ++ [name])).parent? = some (ofNames names) := by
  have all : ∀ s ∈ names ++ [name], '/' ∉ s.toList := by
    intro s member
    rcases List.mem_append.mp member with earlier | same
    · exact (valid s earlier).slash
    · exact List.mem_singleton.mp same ▸ last.slash
  rw [parent?, segments_ofNames (by simp) all, List.reverse_append, List.reverse_singleton,
    List.singleton_append, trimEnd_of_isName last]
  cases above : names.reverse with
  | nil =>
      rw [List.reverse_eq_nil_iff.mp above]
      simp [last.some, ofNames]
  | cons next rest =>
      have named : IsName next := valid next (List.mem_reverse.mp (above ▸ List.mem_cons_self))
      simp only
      rw [trimEnd_of_isName named]
      split
      · rename_i same
        exact absurd (List.cons.inj same).1 named.some
      · rw [← above, List.reverse_reverse, ofNames]

/-- A file is of a kind if its name ends in a dot and the kind, and something stands before that. -/
theorem extension?_eq_some_iff {kind : String} (plain : '.' ∉ kind.toList)
    (h : p.fileName? = some name)
    : p.extension? = some kind ↔ ∃ stem, stem ≠ [] ∧ name.toList = stem ++ '.' :: kind.toList := by
  let behind (c : Char) : Bool := c ≠ '.'
  have whole := List.takeWhile_append_dropWhile (p := behind) (l := name.toList.reverse)
  have meaning : p.extension? = some kind
      ↔ 1 < (name.toList.reverse.dropWhile behind).length
        ∧ name.toList.reverse.takeWhile behind = kind.toList.reverse := by
    rw [extension?, h, Option.bind_eq_bind, Option.bind_some]
    simp only [Option.ite_none_right_eq_some, Option.some.injEq]
    refine and_congr_right fun _ => ⟨fun same => ?_, fun same => ?_⟩
    · simp [← same, behind]
    · exact String.toList_injective (by simpa [behind] using congrArg List.reverse same)
  rw [meaning]
  constructor
  · rintro ⟨long, same⟩
    cases split : name.toList.reverse.dropWhile behind with
    | nil => simp [split] at long
    | cons dot stem =>
        have isDot : dot = '.' := by
          have first := List.head_dropWhile_not behind (l := name.toList.reverse) (by simp [split])
          simp only [split, List.head_cons] at first
          simpa [behind] using first
        rw [same, split, isDot] at whole
        refine ⟨stem.reverse, ?_, ?_⟩
        · rintro none
          simp [split, List.reverse_eq_nil_iff.mp none] at long
        · rw [← List.reverse_reverse name.toList, ← whole]
          simp
  · rintro ⟨stem, some, split⟩
    have backwards : name.toList.reverse = kind.toList.reverse ++ '.' :: stem.reverse := by
      simp [split]
    have passes : ∀ c ∈ kind.toList.reverse, behind c = true := by
      intro c member
      have apart : c ≠ '.' := by
        rintro rfl
        exact plain (List.mem_reverse.mp member)
      simp [behind, apart]
    rw [backwards, List.dropWhile_append_of_pos passes, List.takeWhile_append_of_pos passes]
    simpa [behind] using List.length_pos_iff.mpr some

-----------------------------------------------------------------------------------------
-- One segment more
-----------------------------------------------------------------------------------------

/-- Without a slash no path is absolute. -/
theorem isAbsolute_of_slash (slash : '/' ∉ s.toList) : (⟨s⟩ : Path).isAbsolute = false := by
  rw [isAbsolute, Bool.eq_false_iff, Ne, String.startsWith_string_iff]
  rintro ⟨rest, split⟩
  exact slash (split ▸ List.mem_cons_self)

/-- Without a slash a text is a single segment. -/
theorem segments_of_slash (slash : '/' ∉ s.toList) : (⟨s⟩ : Path).segments = [s] := by
  rw [segments, List.splitOn_eq_singleton slash]
  simp

section Join

variable (some : p.text ≠ "") (slash : '/' ∉ s.toList)

include some slash

/-- A segment is put behind a path, where a slash may stand already. -/
theorem segments_join
    : ∃ lead, lead ≠ [] ∧ (p.join ⟨s⟩).segments = lead ++ [s]
        ∧ (p.segments = lead ∧ lead.getLast? ≠ .some "" ∨ p.segments = lead ++ [""]) := by
  rw [join, isAbsolute_of_slash slash, Bool.false_or]
  simp only [String.isEmpty_iff, some, if_false]
  split
  · rename_i ends
    obtain ⟨lead, split⟩ := endsWith_slash_iff.mp ends
    refine ⟨_, segments_ne_nil ⟨lead⟩, segments_slash (by rw [split]) slash, .inr ?_⟩
    exact segments_slash (by simp [split]) (by simp)
  · rename_i other
    refine ⟨_, p.segments_ne_nil, segments_slash rfl slash, .inl ⟨rfl, fun last => ?_⟩⟩
    obtain ⟨lead, split⟩ := List.getLast?_eq_some_iff.mp last
    cases lead with
    | nil =>
        rw [← p.intercalate_segments, split] at some
        exact some rfl
    | cons first lead => exact other (endsWith_of_segments (List.cons_ne_nil _ _) split)

/-- To join a name adds it, unless it says nothing. -/
theorem names_join : (p.join ⟨s⟩).names = p.names ++ if isBlank s then [] else [s] := by
  obtain ⟨lead, -, behind, before⟩ := segments_join some slash
  have same : lead.filter (fun s => !isBlank s) = p.names := by
    rcases before with ⟨before, -⟩ | before
    · rw [names, before]
    · simp [names, before, isBlank]
  rw [names, behind, List.filter_append, same]
  cases blank : isBlank s <;> simp [blank]

/-- A path that is joined begins as it did. -/
theorem head?_segments_join : (p.join ⟨s⟩).segments.head? = p.segments.head? := by
  obtain ⟨lead, more, behind, before⟩ := segments_join some slash
  obtain ⟨first, rest, rfl⟩ := List.exists_cons_of_ne_nil more
  rcases before with ⟨before, -⟩ | before <;> simp [behind, before]

/-- With a segment behind it, a path has two at least. -/
theorem length_segments_join : 1 < (p.join ⟨s⟩).segments.length := by
  obtain ⟨lead, more, behind, -⟩ := segments_join some slash
  rw [behind, List.length_append, List.length_singleton]
  exact Nat.lt_add_of_pos_left (List.length_pos_iff.mpr more)

end Join

/-- A path that is joined grows by a slash and the name at most. -/
theorem utf8ByteSize_join
    : (p.join ⟨s⟩).text.utf8ByteSize ≤ p.text.utf8ByteSize + 1 + s.utf8ByteSize := by
  have slashSize : "/".utf8ByteSize = 1 := rfl
  unfold join
  split
  · simp only
    omega
  · split
    · simp only [String.utf8ByteSize_append]
      omega
    · simp only [String.utf8ByteSize_append]
      omega

/-- Behind names, a further one is the last of them. -/
theorem join_ofNames {names : List String} (valid : ∀ s ∈ names, IsName s) (h : IsName name)
    : (ofNames names).join ⟨name⟩ = ofNames (names ++ [name]) := by
  cases names with
  | nil => simp [join, ofNames, isAbsolute_of_slash h.slash]
  | cons first rest =>
      have before := segments_ofNames (List.cons_ne_nil first rest)
        fun s member => (valid s member).slash
      have some : (ofNames (first :: rest)).text ≠ "" := by
        intro none
        have blank : (ofNames (first :: rest)).segments = [""] := by
          rw [segments, none]
          rfl
        rw [before] at blank
        exact (valid first List.mem_cons_self).some (List.cons.inj blank).1
      obtain ⟨lead, -, behind, same⟩ := segments_join some h.slash
      rw [before] at same
      have whole : first :: rest = lead := by
        refine (same.resolve_right fun ends => ?_).1
        exact (valid "" (ends ▸ List.mem_append_right _ (List.mem_singleton_self _))).some rfl
      refine eq_of_segments ?_
      rw [behind, ← whole, segments_ofNames (by simp) fun s member => ?_]
      rcases List.mem_append.mp member with earlier | last
      · exact (valid s earlier).slash
      · exact List.mem_singleton.mp last ▸ h.slash

/-- A plain path stays plain behind a step that does not lead back up. -/
theorem Plain.join (plain : p.Plain) (some : p.text ≠ "") (slash : '/' ∉ s.toList) (up : s ≠ "..")
    : (p.join ⟨s⟩).Plain := by
  constructor
  · by_contra absolute
    obtain ⟨rest, -, blank⟩ := isAbsolute_iff.mp (Bool.of_not_eq_false absolute)
    obtain ⟨first, _, starts, given⟩ := plain.first some
    have same := head?_segments_join some slash
    rw [blank, starts] at same
    exact given (Option.some.inj same).symm
  · obtain ⟨lead, -, behind, before⟩ := segments_join some slash
    rw [behind, List.mem_append, List.mem_singleton]
    rintro (earlier | same)
    · rcases before with before | before
      · exact plain.forward (before.1 ▸ earlier)
      · exact plain.forward (before ▸ List.mem_append_left _ earlier)
    · exact up same.symm

/-- A name is one more part. -/
theorem parts_join (plain : p.Plain) (some : p.text ≠ "") (h : IsName name)
    : (p.join ⟨name⟩).parts = p.parts ++ [.name name] := by
  rw [(plain.join some h.slash h.up).parts_eq, plain.parts_eq, names_join some h.slash,
    head?_segments_join some h.slash, isBlank_of_isName h]
  simp

-----------------------------------------------------------------------------------------
-- Order
-----------------------------------------------------------------------------------------

/-- What paths have in common at the start is passed over. -/
theorem go_append (parts as bs : List Part)
    : before.go (parts ++ as) (parts ++ bs) = before.go as bs := by
  induction parts with
  | nil => rfl
  | cons part parts ih => simp [before.go, ih]

/-- Texts that are the same, in whatever order, have one order. -/
theorem mergeSort_congr {names names' : List String} (unique : names.Nodup)
    (unique' : names'.Nodup) (same : ∀ name, name ∈ names ↔ name ∈ names')
    : names.mergeSort (· ≤ ·) = names'.mergeSort (· ≤ ·) := by
  have sorted (list : List String) : (list.mergeSort (· ≤ ·)).Pairwise fun a b => a ≤ b := by
    have ordered := @List.pairwise_mergeSort _ (fun a b : String => decide (a ≤ b))
      (by simpa using fun a b c => String.le_trans) (by simpa using String.le_total) list
    simpa using ordered
  have all : names.Perm names' := (List.perm_ext_iff_of_nodup unique unique').mpr same
  refine List.Perm.eq_of_pairwise (fun a b _ _ => le_antisymm) (sorted _) (sorted _) ?_
  exact (List.mergeSort_perm _ _).trans (all.trans (List.mergeSort_perm _ _).symm)

/-- Paths that differ in the last name are in the order of that. -/
theorem sort_map {f : String → Path} {lead : List Part} {names : List String}
    (same : ∀ name ∈ names, (f name).parts = lead ++ [.name name])
    : sort (names.map f) = (names.mergeSort (· ≤ ·)).map f := by
  refine (List.map_mergeSort fun a inside b inside' => ?_).symm
  rw [before, same a inside, same b inside', go_append]
  by_cases equal : a = b
  · simp [before.go, equal]
  · have apart : a ≤ b ↔ a < b := ⟨fun le => lt_of_le_of_ne le equal, le_of_lt⟩
    simp [before.go, Part.rank, equal, apart]

/-- Paths that differ in the last name, in whatever order, are put in the order of that. -/
theorem sort_eq_map {f : String → Path} {lead : List Part} {names : List String}
    {listed : List Path} (same : ∀ name ∈ names, (f name).parts = lead ++ [.name name])
    (unique : listed.Nodup) (once : names.Nodup)
    (all : ∀ path, path ∈ listed ↔ ∃ name ∈ names, f name = path)
    : sort listed = (names.mergeSort (· ≤ ·)).map f := by
  let last (path : Path) : String := path.fileName?.getD ""
  have last_f {name : String} (member : name ∈ names) : last (f name) = name := by
    simp [last, fileName?, same name member]
  have names_iff (name : String) : name ∈ listed.map last ↔ name ∈ names := by
    rw [List.mem_map]
    constructor
    · rintro ⟨path, member, rfl⟩
      obtain ⟨name, inside, rfl⟩ := (all path).mp member
      rwa [last_f inside]
    · exact fun member => ⟨f name, (all _).mpr ⟨name, member, rfl⟩, last_f member⟩
  have whole : (listed.map last).map f = listed := by
    rw [List.map_map]
    refine (List.map_congr_left fun path member => ?_).trans (List.map_id' listed)
    obtain ⟨name, inside, rfl⟩ := (all path).mp member
    exact congrArg f (last_f inside)
  have distinct : (listed.map last).Nodup := List.Nodup.of_map f (by rwa [whole])
  rw [← mergeSort_congr distinct once names_iff, ← sort_map, whole]
  exact fun name member => same name ((names_iff name).mp member)

end Path

end Raml
