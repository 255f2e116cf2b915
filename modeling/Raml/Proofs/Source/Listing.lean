import Raml.Proofs.Source.Held

/-! What a tree lists for a directory whose path holds no wildcards: the names in it that end like
the name of a document.
-/

namespace Raml

namespace Glob

/-- No character has a meaning in patterns. -/
def Literal (cs : List Char) : Prop := ∀ c ∈ cs, c ≠ '*' ∧ c ≠ '?' ∧ c ≠ '['

instance (cs : List Char) : Decidable (Literal cs) :=
  List.decidableBAll (fun c => c ≠ '*' ∧ c ≠ '?' ∧ c ≠ '[') cs

/-- The pattern for names that end in a dot and a kind. -/
def kindTokens (kind : String) : List Token := .anyText :: .char '.' :: kind.toList.map .char

variable {cs rest : List Char} {ts : List Token}

/-- Before a pattern that is read alike everywhere, text without wildcards stands for itself. -/
theorem tokensFrom_append (literal : Literal cs)
    (h : ∀ position fresh, tokensFrom position fresh rest = .ok ts) (position : Nat) (fresh : Bool)
    : tokensFrom position fresh (cs ++ rest) = .ok (cs.map .char ++ ts) := by
  induction cs generalizing position fresh with
  | nil => exact h position fresh
  | cons c cs ih =>
      obtain ⟨⟨star, any, set⟩, literal⟩ := List.forall_mem_cons.mp literal
      rw [List.cons_append, tokensFrom, ih literal]
      · rfl
      all_goals simp_all

theorem tokensFrom_literal (literal : Literal cs) (position : Nat) (fresh : Bool)
    : tokensFrom position fresh cs = .ok (cs.map .char) := by
  have none (position : Nat) (fresh : Bool) : tokensFrom position fresh [] = .ok [] := by
    rw [tokensFrom]
  simpa using tokensFrom_append literal none position fresh

/-- The pattern for documents is a wildcard and the literal extension. -/
theorem tokensFrom_kind {kind : String} (literal : Literal kind.toList) (position : Nat)
    (fresh : Bool)
    : tokensFrom position fresh ("*." ++ kind).toList = .ok (kindTokens kind) := by
  have behind : Literal ('.' :: kind.toList) := List.forall_mem_cons.mpr ⟨by decide, literal⟩
  have split : ("*." ++ kind).toList = '*' :: '.' :: kind.toList := by simp
  rw [split, tokensFrom, tokensFrom_literal behind]
  · rfl
  all_goals simp

/-- Characters alone are a plain text. -/
theorem plain?_map_char (cs : List Char) : plain? (cs.map .char) = some cs := by
  induction cs with
  | nil => rfl
  | cons c cs ih => simp [plain?, ih]

/-- Text without wildcards is a name. -/
theorem ofTokens_map_char (cs : List Char)
    : Step.ofTokens (cs.map .char) = .name (String.ofList cs) := by
  unfold Step.ofTokens
  split
  · rename_i same
    cases cs <;> simp at same
  · rw [plain?_map_char]

/-- A literal pattern covers the text that it spells. -/
theorem covers_map_char {text : List Char} : covers (text.map .char) cs = true ↔ cs = text := by
  induction text generalizing cs with
  | nil => simp [covers]
  | cons c text ih =>
      cases cs with
      | nil => simp [covers]
      | cons d cs => simp [covers, ih, eq_comm (a := c)]

/-- Wildcards may leave any end of a text. -/
theorem mem_suffixes_iff {part : List Char} : part ∈ suffixes cs ↔ part <:+ cs := by
  induction cs with
  | nil => simp [suffixes]
  | cons c cs ih => rw [suffixes, List.mem_cons, ih, List.suffix_cons_iff]

/-- The pattern for a kind covers what ends in it. -/
theorem covers_kindTokens {kind : String}
    : covers (kindTokens kind) cs = true ↔ '.' :: kind.toList <:+ cs := by
  rw [kindTokens, covers, List.any_eq_true]
  have exactly (part : List Char)
      : covers (.char '.' :: kind.toList.map .char) part = true ↔ part = '.' :: kind.toList :=
    @covers_map_char part ('.' :: kind.toList)
  constructor
  · rintro ⟨part, inside, covered⟩
    exact (exactly part).mp covered ▸ mem_suffixes_iff.mp inside
  · exact fun ends => ⟨_, mem_suffixes_iff.mpr ends, (exactly _).mpr rfl⟩

/-- Nothing is collapsed where no step is for any depth. -/
theorem collapse_eq_self {steps : List Step} (h : ∀ step ∈ steps, step ≠ .below)
    : collapse steps = steps := by
  induction steps with
  | nil => rw [collapse]
  | cons step steps ih =>
      obtain ⟨other, others⟩ := List.forall_mem_cons.mp h
      rw [collapse, ih others]
      simp [other]

end Glob

open Glob

/-- The steps to a directory and, in it, to the names of documents. -/
def documentSteps (lead : List String) : List Step :=
  lead.map .name ++ [.pattern (kindTokens documentExtension)]

variable {pattern : Path} {lead : List String}

/-- A pattern for documents is read as one, wherever its directory is. -/
theorem tokens_pattern (split : pattern.segments = lead ++ ["*." ++ documentExtension])
    (literal : ∀ s ∈ lead, Literal s.toList)
    : ∃ ts, tokens pattern.text = .ok ts := by
  have kind (position : Nat) (fresh : Bool)
      : tokensFrom position fresh ("*." ++ documentExtension).toList
        = .ok (kindTokens documentExtension) :=
    tokensFrom_kind (by decide) position fresh
  rw [tokens, ← pattern.intercalate_segments, split]
  cases lead with
  | nil => exact ⟨_, by simpa using kind 0 true⟩
  | cons first more =>
      rw [String.intercalate_append_of_ne_nil (List.cons_ne_nil _ _) (List.cons_ne_nil _ _),
        String.toList_append]
      refine ⟨_, tokensFrom_append (fun c member => ?_) (by simpa using kind) 0 true⟩
      rw [String.toList_append, String.toList_intercalate, List.mem_append] at member
      rcases member with inside | slash
      · rcases Path.mem_intercalate inside with rfl | ⟨_, segment, here⟩
        · decide
        · obtain ⟨s, member, rfl⟩ := List.mem_map.mp segment
          exact literal s member c here
      · rw [List.mem_singleton.mp slash]
        decide

/-- The steps of a pattern for documents: names that lead to a directory, and a pattern in it. -/
theorem steps_pattern (literal : ∀ s ∈ lead, Literal s.toList)
    : (lead ++ ["*." ++ documentExtension]).mapM (fun s => Step.ofTokens <$> tokens s)
      = .ok (documentSteps lead) := by
  have names : lead.mapM (fun s => Step.ofTokens <$> tokens s) = .ok (lead.map .name) := by
    refine mapM_eq_map fun s member => ?_
    rw [tokens, tokensFrom_literal (literal s member)]
    exact congrArg Except.ok ((ofTokens_map_char _).trans (by rw [String.ofList_toList]))
  have kind : tokens ("*." ++ documentExtension) = .ok (kindTokens documentExtension) :=
    tokensFrom_kind (by decide) 0 true
  rw [List.mapM_append, names, List.mapM_cons, kind]
  rfl

/-- The pattern for the documents of a literal directory leads there by name, step by step. -/
theorem read_pattern (split : pattern.segments = lead ++ ["*." ++ documentExtension])
    (relative : pattern.isAbsolute = false) (literal : ∀ s ∈ lead, Literal s.toList)
    : Pattern.read pattern.text
      = .ok { absolute := false, steps := documentSteps lead, directories := false } := by
  obtain ⟨ts, whole⟩ := tokens_pattern split literal
  have same : (pattern.text.toList.splitOn '/').map String.ofList
      = lead ++ ["*." ++ documentExtension] := split
  have starts : pattern.text.startsWith "/" = false := relative
  have last : (lead ++ ["*." ++ documentExtension]).getLast? ≠ some "" := by
    rw [List.getLast?_concat]
    decide
  have ends : pattern.text.endsWith "/" = false := by
    by_contra slash
    obtain ⟨before, text⟩ := Path.endsWith_slash_iff.mp (Bool.of_not_eq_false slash)
    have blank : pattern.segments = (⟨before⟩ : Path).segments ++ [""] :=
      Path.segments_slash (by simpa using text) (by simp)
    exact last (by rw [← split, blank, List.getLast?_concat])
  have flat : collapse (documentSteps lead) = documentSteps lead := by
    refine collapse_eq_self fun step member => ?_
    rcases List.mem_append.mp member with name | pattern
    · obtain ⟨s, -, rfl⟩ := List.mem_map.mp name
      simp
    · simp [List.mem_singleton.mp pattern]
  simp only [Pattern.read, whole, ok_bind, starts, Bool.false_eq_true, if_false, same, if_neg last,
    steps_pattern literal, Bool.false_and, flat, ends]
  rfl

-----------------------------------------------------------------------------------------
-- Steps through a tree
-----------------------------------------------------------------------------------------

open Raml.Path (isBlank ofNames)

namespace FileTree

/-- The path that names lead to, one step after the other. -/
def walk (q : Path) (lead : List String) : Path := lead.foldl stepTo q

/-- How long texts are with a slash behind each of them. -/
def lengthOf : List String → Nat
  | [] => 0
  | s :: lead => s.utf8ByteSize + 1 + lengthOf lead

/-- Names that can be followed by steps from where a path is. Steps start at a single dot, which
they do not lead on from by a name that is empty. -/
structure Way (bound : Nat) (q : Path) (lead : List String) : Prop where
  plain : q.Plain
  some : q.text ≠ ""
  forward : ".." ∉ lead
  slash : ∀ s ∈ lead, '/' ∉ s.toList
  start : q.text = "." → (lead.dropWhile (· = ".")).head? ≠ .some ""
  room : (if q.text = "." then 0 else q.text.utf8ByteSize + 1) + lengthOf lead ≤ bound + 1

variable {t : FileTree} {m : MemoryFiles} {p q : Path} {s name : String} {bound : Nat}

/-- The path is where steps start. -/
theorem eq_start (h : q.text = ".") : q = ⟨"."⟩ := congrArg Path.mk h

namespace Way

/-- The first step leads to a name, or nowhere if that is a single dot. -/
theorem step_start (way : Way bound q (s :: lead)) (here : q.text = ".")
    : Way bound ⟨s⟩ lead ∧ (⟨s⟩ : Path).names = q.names ++ if isBlank s then [] else [s] := by
  obtain ⟨plain, some, forward, slash, start, room⟩ := way
  obtain ⟨slash, slashes⟩ := List.forall_mem_cons.mp slash
  rw [if_pos here, lengthOf] at room
  have up : ".." ≠ s := List.ne_of_not_mem_cons forward
  refine ⟨⟨⟨Path.isAbsolute_of_slash slash, ?_⟩, ?_, ?_, slashes, ?_, ?_⟩, ?_⟩
  · simpa [Path.segments_of_slash slash] using up
  · rintro rfl
    exact start here rfl
  · exact List.not_mem_of_not_mem_cons forward
  · rintro rfl
    exact start here
  · split
    · omega
    · dsimp only
      omega
  · have none : (⟨"."⟩ : Path).names = [] := by decide
    rw [eq_start here, none, Path.names, Path.segments_of_slash slash]
    cases blank : isBlank s <;> simp [blank]

/-- Elsewhere a step leads to what is behind a slash. -/
theorem step_join (way : Way bound q (s :: lead)) (there : q.text ≠ ".")
    : Way bound (q.join ⟨s⟩) lead
      ∧ (q.join ⟨s⟩).names = q.names ++ if isBlank s then [] else [s] := by
  obtain ⟨plain, some, forward, slash, start, room⟩ := way
  obtain ⟨slash, slashes⟩ := List.forall_mem_cons.mp slash
  rw [if_neg there, lengthOf] at room
  have up : ".." ≠ s := List.ne_of_not_mem_cons forward
  have long := Path.length_segments_join some slash
  have other {text : String} (short : (⟨text⟩ : Path).segments.length = 1)
      : (q.join ⟨s⟩).text ≠ text := by
    rintro rfl
    exact absurd short (Nat.ne_of_gt long)
  refine ⟨⟨plain.join some slash up.symm, other rfl, ?_, slashes, ?_, ?_⟩,
    Path.names_join some slash⟩
  · exact List.not_mem_of_not_mem_cons forward
  · exact fun again => absurd again (other rfl)
  · rw [if_neg (other rfl)]
    have longer := Path.utf8ByteSize_join (p := q) (s := s)
    omega

/-- One step along a way is a way. -/
theorem step (way : Way bound q (s :: lead))
    : Way bound (stepTo q s) lead
      ∧ (stepTo q s).names = q.names ++ if isBlank s then [] else [s] := by
  rw [stepTo]
  split
  · rename_i here
    exact way.step_start here
  · rename_i there
    exact way.step_join there

/-- Where steps lead to, and the names on the way. -/
theorem stop (way : Way bound q lead)
    : Way bound (walk q lead) []
      ∧ (walk q lead).names = q.names ++ lead.filter fun s => !isBlank s := by
  induction lead generalizing q with
  | nil => exact ⟨way, by simp [walk]⟩
  | cons s lead ih =>
      obtain ⟨way, first⟩ := way.step
      obtain ⟨stop, names⟩ := ih way
      refine ⟨stop, names.trans ?_⟩
      rw [first]
      cases blank : isBlank s <;> simp [blank]

/-- No path on the way is longer than all of it. -/
theorem spelled (way : Way bound q lead) (short : bound ≤ longestPath) : q.Spelled := by
  refine ⟨way.some, ?_⟩
  have room := way.room
  split at room
  · rename_i here
    rw [here]
    decide
  · omega

end Way

/-- A directory exists. -/
theorem exists_of_isDirectory (h : t.isDirectory p = true) : t.exists? p = true := by
  rw [isDirectory] at h
  rw [exists?]
  split at h
  · rename_i found
    simp [found, Except.toOption]
  · cases h

section Search

variable (held : m.Holds t) (short : bound ≤ longestPath)

include held short

/-- On a way, a path leads to a directory if its names do. -/
theorem isDirectory_of_way (way : Way bound q lead)
    : t.isDirectory q = true ↔ ∃ entries, t.at? q.names = .ok (.directory entries) :=
  (isDirectory_iff held way.plain).trans (and_iff_right (way.spelled short))

/-- Above a directory there are directories. -/
theorem isDirectory_of_walk (way : Way bound q lead) (h : t.isDirectory (walk q lead) = true)
    : t.isDirectory q = true := by
  obtain ⟨stop, names⟩ := way.stop
  obtain ⟨entries, found⟩ := (isDirectory_of_way held short stop).mp h
  refine (isDirectory_of_way held short way).mpr ?_
  rw [names, at?, ← List.append_assoc, Entry.find_append] at found
  obtain ⟨e, above, below⟩ := bind_eq_ok_iff.mp found
  cases e with
  | directory entries => exact ⟨entries, above⟩
  | file bytes =>
      cases onward : lead.filter fun s => !isBlank s with
      | nil => simp [onward, Entry.find] at below
      | cons name names => simp [onward, Entry.find] at below

/-- The names in a directory are listed in order. -/
theorem namesIn_eq (way : Way bound q []) (h : t.isDirectory q = true)
    : t.namesIn q = (Keyed.keys (t.inside q.names)).mergeSort (· ≤ ·) := by
  obtain ⟨entries, there⟩ := (isDirectory_of_way held short way).mp h
  have found := (find_eq_ok_iff_of_holds held way.plain).mpr
    ⟨way.spelled short, there, fun _ => rfl⟩
  rw [namesIn, found, inside, there]
  rfl

/-- The steps for documents lead to the names in a directory, if there is one. -/
theorem search_documentSteps (way : Way bound q lead)
    : t.search (documentSteps lead) q
      = if t.isDirectory (walk q lead) then
          ((t.namesIn (walk q lead)).filter fun name => NamesDocument name).map
            (stepTo (walk q lead))
        else [] := by
  induction lead generalizing q with
  | nil =>
      have dots : (Step.pattern (kindTokens documentExtension)).startsWithDot = false := rfl
      have accepts : (Step.pattern (kindTokens documentExtension)).accepts
          = fun name => decide (NamesDocument name) := by
        funext name
        rw [Bool.eq_iff_iff, Step.accepts, covers_kindTokens, decide_eq_true_iff, NamesDocument]
      have ends (path : Path) : t.search [] path = [path] := by rw [search]
      rw [documentSteps, List.map_nil, List.nil_append, search, walk, List.foldl_nil]
      simp [dots, accepts, ends, List.map_eq_flatMap]
  | cons s lead ih =>
      have onward := ih way.step.1
      have steps : documentSteps (s :: lead) = .name s :: documentSteps lead := rfl
      have same : walk q (s :: lead) = walk (stepTo q s) lead := rfl
      rw [steps, search, onward, same]
      by_cases stops : t.isDirectory (walk (stepTo q s) lead) = true
      · have here := isDirectory_of_walk held short way stops
        have next := exists_of_isDirectory (isDirectory_of_walk held short way.step.1 stops)
        simp [here, next]
      · rw [if_neg stops]
        simp

end Search

end FileTree

/-- A pattern takes the path of a directory literally, and leaves room for a name behind it. -/
structure Path.Listable (p : Path) : Prop where
  literal : ∀ s ∈ p.segments, Literal s.toList
  start : ∀ rest, p.segments.dropWhile (· = ".") = "" :: rest → rest = []
  room : p.text.utf8ByteSize + 1 + FileTree.longestName ≤ FileTree.longestPath

namespace FileTree

variable {t : FileTree} {m : MemoryFiles} {p q : Path} {name : String} {lead : List String}
variable {bound : Nat}

theorem lengthOf_append (lead more : List String)
    : lengthOf (lead ++ more) = lengthOf lead + lengthOf more := by
  induction lead with
  | nil => simp [lengthOf]
  | cons s lead ih =>
      rw [List.cons_append, lengthOf, lengthOf, ih]
      omega

/-- The segments of a path with a slash behind each are one longer than its text. -/
theorem lengthOf_segments (p : Path) : lengthOf p.segments = p.text.utf8ByteSize + 1 := by
  have all (first : String) (rest : List String)
      : lengthOf (first :: rest) = ("/".intercalate (first :: rest)).utf8ByteSize + 1 := by
    induction rest generalizing first with
    | nil => simp [lengthOf]
    | cons next rest ih =>
        have slash : "/".utf8ByteSize = 1 := rfl
        rw [lengthOf, ih, String.intercalate_cons_cons, String.utf8ByteSize_append,
          String.utf8ByteSize_append, slash]
        omega
  obtain ⟨first, rest, split⟩ := List.exists_cons_of_ne_nil p.segments_ne_nil
  conv_rhs => rw [← p.intercalate_segments]
  rw [split, all]

/-- Single dots at the start of a path are followed by a name, also without a slash at its end. -/
theorem head?_dropWhile (listable : p.Listable)
    (before : p.segments = lead ∧ lead.getLast? ≠ some "" ∨ p.segments = lead ++ [""])
    : (lead.dropWhile (· = ".")).head? ≠ some "" := by
  intro blank
  obtain ⟨rest, split⟩ := List.head?_eq_some_iff.mp blank
  rcases before with ⟨before, last⟩ | before
  · have none := listable.start rest (by rw [before, split])
    have whole := List.takeWhile_append_dropWhile (p := (· = ".")) (l := lead)
    rw [split, none] at whole
    exact last (by rw [← whole, List.getLast?_concat])
  · have dropped : p.segments.dropWhile (· = ".") = "" :: (rest ++ [""]) := by
      rw [before, List.dropWhile_append, split]
      rfl
    simpa using listable.start _ dropped

/-- The way to the directory that a plain path leads to. -/
theorem exists_way (plain : p.Plain) (listable : p.Listable)
    : ∃ lead, (p.join ⟨"*." ++ documentExtension⟩).segments = lead ++ ["*." ++ documentExtension]
        ∧ (p.join ⟨"*." ++ documentExtension⟩).isAbsolute = false
        ∧ (∀ s ∈ lead, Literal s.toList)
        ∧ Way p.text.utf8ByteSize ⟨"."⟩ lead
        ∧ (lead.filter fun s => !isBlank s) = p.names := by
  have start : Path.Plain ⟨"."⟩ := ⟨Path.isAbsolute_of_slash (by decide), by decide⟩
  have slash : '/' ∉ ("*." ++ documentExtension).toList := by decide
  by_cases none : p.text = ""
  · obtain rfl : p = ⟨""⟩ := congrArg Path.mk none
    have same : (⟨""⟩ : Path).join ⟨"*." ++ documentExtension⟩ = ⟨"*." ++ documentExtension⟩ := by
      simp [Path.join]
    rw [same]
    refine ⟨[], Path.segments_of_slash slash, Path.isAbsolute_of_slash slash, by simp,
      ⟨start, by decide, ?_, ?_, ?_, ?_⟩, by decide⟩
    all_goals simp [lengthOf]
  · obtain ⟨lead, -, behind, before⟩ := Path.segments_join none slash
    have inside {s : String} (member : s ∈ lead) : s ∈ p.segments := by
      rcases before with ⟨before, -⟩ | before
      · exact before ▸ member
      · exact before ▸ List.mem_append_left _ member
    have names : (lead.filter fun s => !isBlank s) = p.names := by
      rcases before with ⟨before, -⟩ | before
      · rw [Path.names, before]
      · simp [Path.names, before, isBlank]
    have room : lengthOf lead ≤ p.text.utf8ByteSize + 1 := by
      rw [← lengthOf_segments]
      rcases before with ⟨before, -⟩ | before <;> simp [before, lengthOf_append]
    refine ⟨lead, behind, (plain.join none slash (by decide)).relative,
      fun s member => listable.literal s (inside member), ⟨start, by decide, ?_, ?_, ?_, ?_⟩, names⟩
    · exact fun member => plain.forward (inside member)
    · exact fun s member => Path.slash_not_mem_of_mem_segments (inside member)
    · exact fun _ => head?_dropWhile listable before
    · simpa using room

/-- A name behind the path of a directory. -/
theorem Way.append (way : Way bound q []) (isName : IsName name)
    : Way (bound + 1 + longestName) q [name] := by
  refine ⟨way.plain, way.some, by simpa using isName.up.symm, by simpa using isName.slash, ?_, ?_⟩
  · intro
    simpa [isName.here] using isName.some
  · have room := way.room
    have short := isName.short
    rw [lengthOf]
    simp only [lengthOf, Nat.add_zero] at room ⊢
    omega

/-- Names behind the path of a directory differ in the last part. -/
theorem Way.parts (way : Way bound q [])
    : ∃ lead, ∀ name, IsName name → (stepTo q name).parts = lead ++ [.name name] := by
  by_cases here : q.text = "."
  · refine ⟨[], fun name isName => ?_⟩
    have alone : (⟨name⟩ : Path) = ofNames [name] := by rw [ofNames, String.intercalate_singleton]
    rw [stepTo, if_pos here, alone, Path.parts_ofNames (by simpa using isName)]
    rfl
  · refine ⟨q.parts, fun name isName => ?_⟩
    rw [stepTo, if_neg here, Path.parts_join way.plain way.some isName]

/-- What a tree lists for a directory: the names in it that end like the name of a document. -/
theorem documents_eq (held : m.Holds t) (plain : p.Plain) (listable : p.Listable)
    : ∃ q, Way p.text.utf8ByteSize q [] ∧ q.names = p.names
        ∧ t.source.documents p = .ok ((t.namesEnding p.names).map (stepTo q)) := by
  obtain ⟨lead, split, relative, literal, way, names⟩ := exists_way plain listable
  have short : p.text.utf8ByteSize ≤ longestPath := by
    have room := listable.room
    omega
  obtain ⟨stop, called⟩ := way.stop
  have here : (walk ⟨"."⟩ lead).names = p.names := by
    rw [called, names]
    rfl
  have found : t.source.documents p
      = .ok (Path.sort (t.search (documentSteps lead) ⟨"."⟩)) := by
    simp only [FileTree.source, glob, read_pattern split relative literal, ok_bind]
    rfl
  refine ⟨walk ⟨"."⟩ lead, stop, here, found.trans (congrArg Except.ok ?_)⟩
  rw [search_documentSteps held short way]
  generalize walk ⟨"."⟩ lead = q at stop here
  by_cases directory : t.isDirectory q = true
  · obtain ⟨parts, behind⟩ := stop.parts
    have names := namesIn_eq held short stop directory
    rw [here] at names
    have once : (Keyed.keys (t.inside p.names)).Nodup := held.nodup_inside
    have isName {name : String} (member : name ∈ Keyed.keys (t.inside p.names)) : IsName name :=
      held.isName_of_mem_inside member _ (by simp)
    rw [if_pos directory, names, Path.sort_map fun name member => behind name (isName ?_)]
    · refine congrArg (List.map (stepTo q)) (Path.mergeSort_congr ?_ (once.filter _) ?_)
      · exact ((List.mergeSort_perm _ _).nodup_iff.mpr once).filter _
      · simp
    · exact List.mem_mergeSort.mp (List.mem_filter.mp member).1
  · have nothing : t.inside p.names = [] := by
      rw [isDirectory_of_way held short stop, here] at directory
      rw [FileTree.inside]
      split
      · rename_i entries there
        exact absurd ⟨entries, there⟩ directory
      · rfl
    rw [if_neg directory, namesEnding, nothing]
    simp [Path.sort, Keyed.keys]

end FileTree

end Raml
