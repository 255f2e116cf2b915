/-! Patterns for the names of files.

A question mark stands for any character, a star for any text, brackets for one of a set of
characters, and two stars, alone between slashes, for any directories.
-/

namespace Raml.Glob

/-- A set of characters: the ranges it is made of. -/
abbrev CharSet := List (Char × Char)

def CharSet.has (set : CharSet) (c : Char) : Bool := set.any fun (least, most) => least ≤ c && c ≤ most

/-- One part of a pattern. -/
inductive Token where
  | char (c : Char)
  | anyChar
  | anyText
  | oneOf (set : CharSet)
  | noneOf (set : CharSet)
  /-- Any directories, one below the other. -/
  | anyDepth
  deriving DecidableEq

/-- A rule that a pattern breaks. -/
inductive Problem where
  | wildcards
  | recursiveWildcards
  | range
  deriving DecidableEq

/-- What is wrong with a pattern, and before which character. -/
structure Fault where
  problem : Problem
  position : Nat
  deriving DecidableEq

def Problem.message : Problem → String
  | .wildcards => "wildcards are either regular `*` or recursive `**`"
  | .recursiveWildcards => "recursive wildcards must form a single path component"
  | .range => "invalid range pattern"

def Fault.message (f : Fault) : String :=
  s!"Pattern syntax error near position {f.position}: " ++ f.problem.message

/-- The ranges that stand between brackets. -/
def charSet : List Char → CharSet
  | least :: '-' :: most :: cs => (least, most) :: charSet cs
  | c :: cs => (c, c) :: charSet cs
  | [] => []

/-- Splits a list behind its first closing bracket. -/
def splitBracket : List Char → Option (List Char × List Char)
  | [] => none
  | ']' :: cs => some ([], cs)
  | c :: cs => (splitBracket cs).map fun (inner, rest) => (c :: inner, rest)

theorem splitBracket_length {cs inner rest : List Char} (h : splitBracket cs = some (inner, rest))
    : rest.length < cs.length := by
  induction cs generalizing inner rest with
  | nil => simp [splitBracket] at h
  | cons c cs ih =>
      unfold splitBracket at h
      split at h
      · contradiction
      · simp_all
      · rename_i heq
        simp only [List.cons.injEq] at heq
        obtain ⟨rfl, rfl⟩ := heq
        simp only [Option.map_eq_some_iff, Prod.exists, Prod.mk.injEq] at h
        obtain ⟨_, _, h, _, rfl⟩ := h
        have := ih h
        simp only [List.length_cons]
        omega

/-- What opens with a bracket, behind it: one of a set, or none of it. The first character of a set
may be any, also a closing bracket. -/
def bracket : List Char → Option (Token × List Char)
  | '!' :: c :: cs => (splitBracket cs).map fun (inner, rest) => (.noneOf (charSet (c :: inner)), rest)
  | c :: cs =>
      if c = '!' then none
      else (splitBracket cs).map fun (inner, rest) => (.oneOf (charSet (c :: inner)), rest)
  | [] => none

theorem bracket_length {cs rest : List Char} {token : Token} (h : bracket cs = some (token, rest))
    : rest.length < cs.length := by
  unfold bracket at h
  split at h
  · simp only [Option.map_eq_some_iff, Prod.exists, Prod.mk.injEq] at h
    obtain ⟨_, _, h, _, rfl⟩ := h
    have := splitBracket_length h
    simp only [List.length_cons]
    omega
  · split at h
    · contradiction
    · simp only [Option.map_eq_some_iff, Prod.exists, Prod.mk.injEq] at h
      obtain ⟨_, _, h, _, rfl⟩ := h
      have := splitBracket_length h
      simp only [List.length_cons]
      omega
  · contradiction

/-- Reads the rest of a pattern; `position` characters lie behind, and `fresh` says that a part of
the path starts here. -/
def tokensFrom (position : Nat) (fresh : Bool) (cs : List Char) : Except Fault (List Token) :=
  match cs with
  | [] => .ok []
  | '?' :: rest => (tokensFrom (position + 1) false rest).map (.anyChar :: ·)
  | '*' :: '*' :: '*' :: _ => .error ⟨.wildcards, position + 2⟩
  | '*' :: '*' :: rest =>
      if !fresh then .error ⟨.recursiveWildcards, position - 1⟩
      else
        match rest with
        | [] => .ok [.anyDepth]
        | '/' :: rest => (tokensFrom (position + 3) true rest).map (.anyDepth :: ·)
        | _ => .error ⟨.recursiveWildcards, position + 2⟩
  | '*' :: rest => (tokensFrom (position + 1) false rest).map (.anyText :: ·)
  | '[' :: inner =>
      match h : bracket inner with
      | some (token, rest) =>
          have := bracket_length h
          (tokensFrom (position + 1 + (inner.length - rest.length)) false rest).map (token :: ·)
      | none => .error ⟨.range, position⟩
  | c :: rest => (tokensFrom (position + 1) (c = '/') rest).map (.char c :: ·)
termination_by cs.length

/-- Reads a pattern. -/
def tokens (pattern : String) : Except Fault (List Token) := tokensFrom 0 true pattern.toList

/-- The list and what is left of it after each of its characters. -/
def suffixes : List Char → List (List Char)
  | [] => [[]]
  | c :: cs => (c :: cs) :: suffixes cs

/-- Whether a pattern covers a text from end to end. -/
def covers : List Token → List Char → Bool
  | [], cs => cs.isEmpty
  | .anyText :: ts, cs | .anyDepth :: ts, cs => (suffixes cs).any (covers ts)
  | .char c :: ts, d :: cs => c == d && covers ts cs
  | .anyChar :: ts, _ :: cs => covers ts cs
  | .oneOf set :: ts, c :: cs => set.has c && covers ts cs
  | .noneOf set :: ts, c :: cs => !set.has c && covers ts cs
  | _ :: _, [] => false

/-- A pattern between two slashes. -/
inductive Step where
  /-- A name without wildcards. -/
  | name (s : String)
  | pattern (tokens : List Token)
  /-- Everything below, at any depth. -/
  | below

/-- The text that a pattern without wildcards stands for. -/
def plain? : List Token → Option (List Char)
  | [] => some []
  | .char c :: ts => (plain? ts).map (c :: ·)
  | _ :: _ => none

def Step.ofTokens (tokens : List Token) : Step :=
  match tokens with
  | [.anyDepth] => .below
  | tokens =>
      match plain? tokens with
      | some cs => .name (String.ofList cs)
      | none => .pattern tokens

/-- Whether a name is one that a step may go to. -/
def Step.accepts : Step → String → Bool
  | .name s, candidate => s == candidate
  | .pattern tokens, candidate => covers tokens candidate.toList
  | .below, _ => true

/-- Whether a step also goes to the names that lead to the directory itself and to the one
above. -/
def Step.startsWithDot : Step → Bool
  | .pattern (.char '.' :: _) => true
  | _ => false

/-- One wildcard for any depth is as good as several. -/
def collapse : List Step → List Step
  | .below :: .below :: steps => collapse (.below :: steps)
  | step :: steps => step :: collapse steps
  | [] => []
termination_by steps => steps.length

/-- A pattern as the steps of a way through directories. -/
structure Pattern where
  absolute : Bool
  steps : List Step
  /-- Whether only directories count, since the pattern ends with a slash. -/
  directories : Bool

def Pattern.read (pattern : String) : Except Fault Pattern := do
  let _ ← tokens pattern
  let absolute := pattern.startsWith "/"
  let rest := if absolute then String.ofList (pattern.toList.drop 1) else pattern
  let segments := (rest.toList.splitOn '/').map String.ofList
  let segments := if segments.getLast? = some "" then segments.dropLast else segments
  let steps ← segments.mapM fun segment => Step.ofTokens <$> tokens segment
  let steps := if absolute && rest = "" then [Step.name ""] else steps
  return { absolute, steps := collapse steps, directories := pattern.endsWith "/" }

/-- Whether a text has any character that patterns give a meaning, or a brace. -/
def looksLikePattern (s : String) : Bool :=
  s.toList.any fun c => c == '*' || c == '?' || c == '[' || c == '{'

end Raml.Glob
