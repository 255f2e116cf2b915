/-! File paths: text whose parts are separated by slashes.

Empty parts say nothing, nor does a single dot, except at the start of a relative path.
-/

namespace Raml

structure Path where
  text : String
  deriving DecidableEq, Inhabited

namespace Path

/-- What one part of a path says. -/
inductive Part where
  | root
  | here
  | up
  | name (s : String)
  deriving DecidableEq, Inhabited

/-- The order of parts: names come last and in the order of their texts. -/
def Part.rank : Part → Nat × String
  | .root => (0, "")
  | .here => (1, "")
  | .up => (2, "")
  | .name s => (3, s)

def Part.text : Part → String
  | .root => "/"
  | .here => "."
  | .up => ".."
  | .name s => s

/-- The texts between the slashes. -/
def segments (p : Path) : List String := (p.text.toList.splitOn '/').map String.ofList

/-- The part that a text between slashes stands for, behind the start of the path. -/
def innerPart? (s : String) : Option Part :=
  if s = "" ∨ s = "." then none else if s = ".." then some .up else some (.name s)

/-- The parts of a path. -/
def parts (p : Path) : List Part :=
  match p.segments with
  | [] => []
  | "" :: rest => if rest.isEmpty then [] else .root :: rest.filterMap innerPart?
  | "." :: rest => .here :: rest.filterMap innerPart?
  | segments => segments.filterMap innerPart?

/-- The path made of parts. -/
def ofParts : List Part → Path
  | .root :: rest => ⟨"/" ++ "/".intercalate (rest.map Part.text)⟩
  | parts => ⟨"/".intercalate (parts.map Part.text)⟩

def isAbsolute (p : Path) : Bool := p.text.startsWith "/"

/-- The path that `inner` names as seen from the directory `p`. -/
def join (p inner : Path) : Path :=
  if inner.isAbsolute || p.text.isEmpty then inner
  else if p.text.endsWith "/" then ⟨p.text ++ inner.text⟩
  else ⟨p.text ++ "/" ++ inner.text⟩

/-- Texts between slashes without those at the end that say nothing. The list is last one first,
and its last entry is the start of the path. -/
def trimEnd : List String → List String
  | [] => []
  | [s] => [s]
  | s :: rest => if s = "" ∨ s = "." then trimEnd rest else s :: rest

/-- The path without its last part; the start of a path has none. -/
def parent? (p : Path) : Option Path :=
  match trimEnd p.segments.reverse with
  | [] => none
  | [s] => if s = "" then none else some ⟨""⟩
  | _ :: rest =>
      match trimEnd rest with
      | [""] => some ⟨"/"⟩
      | rest => some ⟨"/".intercalate rest.reverse⟩

/-- The path without its last part, or the empty path. -/
def parent (p : Path) : Path := p.parent?.getD ⟨""⟩

/-- The name of the file a path leads to. -/
def fileName? (p : Path) : Option String :=
  match p.parts.getLast? with
  | some (.name s) => some s
  | _ => none

/-- The text behind the last dot of the file's name, unless the name starts with that dot. -/
def extension? (p : Path) : Option String := do
  let name ← p.fileName?
  let backwards := name.toList.reverse
  -- The dot and what stands before it, last character first.
  let before := backwards.dropWhile (· ≠ '.')
  if 1 < before.length then some (String.ofList (backwards.takeWhile (· ≠ '.')).reverse) else none

/-- The path without single dots, so that two spellings of one place agree. -/
def normal (p : Path) : Path := ofParts (p.parts.filter (· ≠ .here))

/-- Whether one path comes before another: by their parts. -/
def before (p q : Path) : Bool := go p.parts q.parts
where
  go : List Part → List Part → Bool
  | [], [] => true
  | [], _ :: _ => true
  | _ :: _, [] => false
  | a :: as, b :: bs =>
      if a = b then go as bs
      else if a.rank.1 = b.rank.1 then a.rank.2 < b.rank.2
      else a.rank.1 < b.rank.1

/-- Paths in order. -/
def sort (ps : List Path) : List Path := ps.mergeSort before

end Path

end Raml
