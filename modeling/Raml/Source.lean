import Raml.Glob
import Raml.Path
import Raml.Text.Utf8

/-! Where files come from. -/

namespace Raml

/-- Why a file or a directory cannot be had. -/
inductive FileFault where
  /-- There is no such file among those kept in memory. -/
  | notKept (path : Path)
  | noEntry
  | occupied
  | notDirectory
  | isDirectory
  | nameTooLong
  /-- No path has a zero byte in it. -/
  | zeroByte
  | pattern (fault : Glob.Fault)
  deriving DecidableEq

/-- The wording of a fault. -/
def FileFault.message : FileFault → String
  | .notKept path => path.text ++ " not found"
  | .noEntry => "No such file or directory (os error 2)"
  | .occupied => "File exists (os error 17)"
  | .notDirectory => "Not a directory (os error 20)"
  | .isDirectory => "Is a directory (os error 21)"
  | .nameTooLong => "File name too long (os error 36)"
  | .zeroByte => "file name contained an unexpected NUL byte"
  | .pattern fault => fault.message

/-- Files, found by their paths. -/
structure Source where
  read : Path → Except FileFault Bytes
  isDirectory : Path → Bool
  /-- The files directly in a directory whose extension is that of documents, in order. -/
  documents : Path → Except FileFault (List Path)
  /-- How many files there are at most. -/
  fileCount : Nat

namespace Source

/-- A source without files. -/
def empty : Source :=
  { read := fun path => .error (.notKept path), isDirectory := fun _ => false
    documents := fun _ => .ok [], fileCount := 0 }

end Source

/-- The extension of the files that hold documents. -/
def documentExtension : String := "raml"

end Raml
