import Raml.Source.Tree

/-! The files of a tree that a pattern names. -/

namespace Raml

namespace Entry

mutual

/-- Everything below an entry that `path` leads to: each directory comes before what is in it, and
the names in it are in order. -/
def contents (path : Path) : Entry → List (Path × Entry)
  | .file _ => []
  | .directory entries =>
      ((contentsOfEach path entries).mergeSort fun a b => a.1 ≤ b.1).flatMap (·.2)

def contentsOfEach (path : Path) : List (String × Entry) → List (String × List (Path × Entry))
  | [] => []
  | (name, e) :: entries =>
      let here := if path.text = "." then ⟨name⟩ else path.join ⟨name⟩
      (name, (here, e) :: contents here e) :: contentsOfEach path entries

end

end Entry

namespace FileTree

/-- One step down: from the directory where relative paths start, a name is a path. -/
def stepTo (path : Path) (name : String) : Path :=
  if path.text = "." then ⟨name⟩ else path.join ⟨name⟩

/-- What is below a directory. -/
def descendants (t : FileTree) (path : Path) : List Path :=
  match t.find path with
  | .ok e => (e.contents path).map (·.1)
  | .error _ => []

/-- The names in a directory, in order. -/
def namesIn (t : FileTree) (path : Path) : List String :=
  match t.find path with
  | .ok e => e.names
  | .error _ => []

/-- The paths that the steps of a pattern lead to from a directory. -/
def search (t : FileTree) : List Glob.Step → Path → List Path
  | [], path => [path]
  | .name s :: steps, path =>
      let next := stepTo path s
      let there := if s = "." ∨ s = ".." then t.isDirectory path else t.exists? next
      if there then t.search steps next else []
  | .below :: [], path => (t.descendants path).filter t.isDirectory
  | .below :: step :: steps, path =>
      (t.descendants path).flatMap fun p =>
        if step.accepts (p.fileName?.getD "") then t.search steps p else []
  | .pattern tokens :: steps, path =>
      if t.isDirectory path then
        let step := Glob.Step.pattern tokens
        let dots := if step.startsWithDot then ["..", "."].filter step.accepts else []
        let names := (t.namesIn path).filter step.accepts
        dots.flatMap (fun name => t.search steps (path.join ⟨name⟩))
          ++ names.flatMap fun name => t.search steps (stepTo path name)
      else []

/-- The paths that a pattern names, in order. -/
def glob (t : FileTree) (pattern : String) : Except Glob.Fault (List Path) := do
  let p ← Glob.Pattern.read pattern
  let found := t.search p.steps ⟨if p.absolute then "/" else "."⟩
  return if p.directories then found.filter t.isDirectory else found

/-- A tree as a source. Documents are looked for by a pattern, so characters in the name of a
directory may count as wildcards. -/
def source (t : FileTree) : Source :=
  { read := t.read
    isDirectory := t.isDirectory
    documents := fun directory =>
      match t.glob (directory.join ⟨"*." ++ documentExtension⟩).text with
      | .ok paths => .ok (Path.sort paths)
      | .error fault => .error (.pattern fault)
    fileCount := ((t.root.filesAt ⟨"/"⟩).length) }

end FileTree

end Raml
