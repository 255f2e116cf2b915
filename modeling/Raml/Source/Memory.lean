import Raml.Keyed
import Raml.Source

/-! Files kept in memory under their paths. Spellings of a path that differ in single dots name the
same file; a directory is there if a file is in it.
-/

namespace Raml

structure MemoryFiles where
  /-- The files, under normal paths. -/
  files : List (Path × Bytes) := []
  deriving Inhabited

namespace MemoryFiles

/-- The file under a path. -/
def get? (m : MemoryFiles) (path : Path) : Option Bytes :=
  (m.files.find? (·.1 = path.normal)).map (·.2)

/-- Puts a file under a path, in place of the one that was there. -/
def insert (m : MemoryFiles) (path : Path) (bytes : Bytes) : MemoryFiles :=
  let key := path.normal
  if m.files.any (·.1 = key) then
    ⟨m.files.map fun (p, b) => if p = key then (p, bytes) else (p, b)⟩
  else ⟨m.files ++ [(key, bytes)]⟩

/-- Takes out the file under a path. -/
def erase (m : MemoryFiles) (path : Path) : MemoryFiles :=
  ⟨m.files.filter (·.1 ≠ path.normal)⟩

/-- Files given by their paths; of those with one path, the last one counts. -/
def ofList (files : List (String × Bytes)) : MemoryFiles :=
  files.foldl (fun m (path, bytes) => m.insert ⟨path⟩ bytes) {}

/-- Whether a path leads to a file that is directly in a directory. -/
def isIn (directory : Path) (path : Path) : Bool := path.parent? = some directory.normal

/-- The files as a source. -/
def source (m : MemoryFiles) : Source :=
  { read := fun path =>
      match m.get? path with
      | some bytes => .ok bytes
      | none => .error (.notKept path)
    isDirectory := fun directory => m.files.any fun (p, _) => isIn directory p
    documents := fun directory =>
      .ok (Path.sort ((m.files.map (·.1)).filter fun p =>
        isIn directory p && p.extension? = some documentExtension))
    fileCount := m.files.length }

end MemoryFiles

end Raml
