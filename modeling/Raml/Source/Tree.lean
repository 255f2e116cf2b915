import Raml.Keyed
import Raml.Source

/-! A tree of directories and files, and paths through it.

Every part of a path but the last has to lead to a directory, and so has the last one if a slash
follows it. A new file cannot have a slash behind its name, whatever is there already.
-/

namespace Raml

inductive Entry where
  | file (bytes : Bytes)
  | directory (entries : List (String × Entry))

instance : Inhabited Entry := ⟨.directory []⟩

namespace Entry

/-- The entry that names lead to, one below the other. -/
def find : Entry → List String → Except FileFault Entry
  | e, [] => .ok e
  | .file _, _ :: _ => .error .notDirectory
  | .directory entries, name :: names =>
      match Keyed.get? entries name with
      | some e => e.find names
      | none => .error .noEntry

/-- The directory with an entry put where names lead to; directories on the way are made. -/
def put (new : Entry) : List String → Entry → Entry
  | [], _ => new
  | name :: names, .file _ => .directory [(name, put new names (.directory []))]
  | name :: names, .directory entries =>
      let old := (Keyed.get? entries name).getD (.directory [])
      .directory (Keyed.insert entries name (put new names old))

/-- The directory without the entry that names lead to. -/
def remove : List String → Entry → Entry
  | name :: names, .directory entries =>
      match names, Keyed.get? entries name with
      | [], _ => .directory (Keyed.erase entries name)
      | _ :: _, some e => .directory (Keyed.insert entries name (remove names e))
      | _ :: _, none => .directory entries
  | _, e => e

mutual

/-- The paths of the files in an entry that `path` leads to. -/
def filesAt (path : Path) : Entry → List (Path × Bytes)
  | .file bytes => [(path, bytes)]
  | .directory entries => filesIn path entries

def filesIn (path : Path) : List (String × Entry) → List (Path × Bytes)
  | [] => []
  | (name, e) :: entries => filesAt (path.join ⟨name⟩) e ++ filesIn path entries

end

/-- The names in a directory, in order. -/
def names : Entry → List String
  | .file _ => []
  | .directory entries => (Keyed.keys entries).mergeSort (· ≤ ·)

def isDirectory : Entry → Bool
  | .file _ => false
  | .directory _ => true

end Entry

/-- A tree, and the names that lead from its root to the directory where relative paths start. -/
structure FileTree where
  root : Entry
  workdir : List String
  deriving Inhabited

namespace FileTree

/-- A tree that holds nothing but the directory where relative paths start. -/
def empty (workdir : List String) : FileTree :=
  ⟨Entry.put (.directory []) workdir (.directory []), workdir⟩

/-- The most bytes that a name may have. -/
def longestName : Nat := 255

/-- The most bytes that a path may have. -/
def longestPath : Nat := 4095

/-- What is wrong with the text of a path, wherever it leads. -/
def spelling (path : Path) : Except FileFault Unit :=
  if path.text.toList.any (·.toNat = 0) then .error .zeroByte
  else if path.text = "" then .error .noEntry
  else if longestPath < path.text.utf8ByteSize then .error .nameTooLong
  else .ok ()

/-- Follows the segments of a path, of which each has to start in a directory: the names that lead
there from the root. -/
def follow (t : FileTree) (names : List String) : List String → Except FileFault (List String)
  | [] => .ok names
  | segment :: rest => do
      match ← t.root.find names with
      | .file _ => .error .notDirectory
      | .directory _ =>
          if segment = "" ∨ segment = "." then t.follow names rest
          else if segment = ".." then t.follow names.dropLast rest
          else if longestName < segment.utf8ByteSize then .error .nameTooLong
          else
            let _ ← t.root.find (names ++ [segment])
            t.follow (names ++ [segment]) rest

/-- The names that lead from the root to where segments of a path lead. -/
def locateSegments (t : FileTree) (absolute : Bool) (segments : List String)
    : Except FileFault (List String) :=
  t.follow (if absolute then [] else t.workdir) segments

/-- The names that lead from the root to where a path leads. The empty path leads nowhere. -/
def locate (t : FileTree) (path : Path) : Except FileFault (List String) := do
  spelling path
  t.locateSegments path.isAbsolute path.segments

/-- What is where a path leads. -/
def find (t : FileTree) (path : Path) : Except FileFault Entry := do
  t.root.find (← t.locate path)

def read (t : FileTree) (path : Path) : Except FileFault Bytes := do
  match ← t.find path with
  | .file bytes => .ok bytes
  | .directory _ => .error .isDirectory

def exists? (t : FileTree) (path : Path) : Bool := (t.find path).toOption.isSome

def isDirectory (t : FileTree) (path : Path) : Bool :=
  match t.find path with
  | .ok e => e.isDirectory
  | .error _ => false

/-- The names of a place for a new entry: its directory has to be there. -/
def newPlace (t : FileTree) (path : Path) : Except FileFault (List String) := do
  spelling path
  match (path.segments.reverse.dropWhile (· = "")) with
  | [] => .error .noEntry
  | name :: above =>
      let names ← t.locateSegments path.isAbsolute above.reverse
      match ← t.root.find names with
      | .file _ => .error .notDirectory
      | .directory _ => .ok (names ++ [name])

/-- Writes a file, in place of the one that was there. -/
def write (t : FileTree) (path : Path) (bytes : Bytes) : Except FileFault FileTree :=
  let put (names : List String) : FileTree := { t with root := Entry.put (.file bytes) names t.root }
  match t.locate path with
  | .ok names => do
      match ← t.root.find names with
      | .file _ => .ok (put names)
      | .directory _ => .error .isDirectory
  | .error fault => do
      let names ← t.newPlace path
      if path.text.endsWith "/" then .error .isDirectory
      else if fault = .noEntry then .ok (put names)
      else .error fault

/-- Makes a directory in one that is there. -/
def makeDirectory (t : FileTree) (path : Path) : Except FileFault FileTree :=
  match t.locate path with
  | .ok _ => .error .occupied
  | .error fault => do
      let names ← t.newPlace path
      if (t.root.find names).toOption.isSome then .error .occupied
      else if fault = .noEntry then
        .ok { t with root := Entry.put (.directory []) names t.root }
      else .error fault

/-- Makes a directory and those above it, as far as they are not there; `depth` bounds how many. -/
def makeDirectoriesTo (depth : Nat) (t : FileTree) (path : Path) : Except FileFault FileTree :=
  if path.text = "" then .ok t
  else
    match t.makeDirectory path with
    | .ok t => .ok t
    | .error .noEntry =>
        match depth, path.parent? with
        | depth + 1, some above => do
            let t ← makeDirectoriesTo depth t above
            if t.isDirectory path then .ok t else t.makeDirectory path
        | _, _ => .error .noEntry
    | .error fault => if t.isDirectory path then .ok t else .error fault

/-- Makes a directory and those above it, as far as they are not there. -/
def makeDirectories (t : FileTree) (path : Path) : Except FileFault FileTree :=
  makeDirectoriesTo path.text.length t path

/-- Takes away what is where a path leads. -/
def remove (t : FileTree) (path : Path) : FileTree :=
  match t.locate path with
  | .ok names => { t with root := Entry.remove names t.root }
  | .error _ => t

/-- The files below a path, each under its path. -/
def filesBelow (t : FileTree) (path : Path) : List (Path × Bytes) :=
  match t.find path with
  | .ok e => e.filesAt path
  | .error _ => []

/-- The files below the directory where relative paths start, each under its relative path. -/
def files (t : FileTree) : List (Path × Bytes) :=
  match t.root.find t.workdir with
  | .ok e => e.filesAt ⟨""⟩
  | .error _ => []

/-- Writes a file and makes the directories above it. -/
def insert (t : FileTree) (path : Path) (bytes : Bytes) : Except FileFault FileTree := do
  (← t.makeDirectories path.parent).write path bytes

end FileTree

end Raml
