import Raml.CommandLine.Run
import Std.Time.DateTime.Timestamp

/-! The program: it takes up the files that a command may look at, runs the command on them, and
puts the files that the command made on disk.

The files are those below the working directory and below the directories that arguments name. They
are under their real paths, so a directory that links lead back to is taken up once.
-/

namespace Raml.CommandLine

/-- The names that lead to a directory on disk, without links. -/
def directoryNames? (place : String) : IO (Option (List String)) := do
  try
    let path ← IO.FS.realPath place
    if ← path.isDir then return some ((path.toString.splitOn "/").filter (· ≠ ""))
    return none
  catch _ => return none

/-- The path that names lead to from the root. -/
def placeOf (names : List String) : String := "/" ++ "/".intercalate names

/-- Takes up what is at a place on disk, unless it is one of the directories `above` it. -/
partial def takeUp (above : List (List String)) (place : String) : IO (Option Entry) := do
  match ← directoryNames? place with
  | some names =>
      if above.contains names then return none
      let mut entries : List (String × Entry) := []
      for inside in ← (← IO.FS.realPath place).readDir do
        let name := inside.fileName
        if let some e ← takeUp (names :: above) (place ++ "/" ++ name) then
          entries := (name, e) :: entries
      return some (.directory entries)
  | none =>
      try
        return some (.file (← IO.FS.readBinFile place).toList)
      catch _ => return none

/-- The places where a path, or the part of a pattern before its wildcards, may start. -/
def startsOf (text : String) : List String :=
  let lead := (text.splitOn "/").takeWhile fun s => !Glob.looksLikePattern s
  let path : Path := ⟨"/".intercalate lead⟩
  [path.text, path.parent.text]

/-- The files that a command may look at. -/
def takeUpFor (given : Given) : IO FileTree := do
  let workdir := (← directoryNames? ".").getD []
  let mut places := [workdir]
  for (_, values) in given do
    for value in values do
      let found ← (startsOf value).filterMapM fun start => directoryNames? start
      places := found.head?.toList ++ places
  let outermost := places.filter fun names =>
    !places.any fun other => other ≠ names && other.isPrefixOf names
  let mut tree := FileTree.empty workdir
  for names in outermost.eraseDups do
    if let some e ← takeUp [] (placeOf names) then
      tree := { tree with root := Entry.put e names tree.root }
  return tree

/-- Puts the files on disk that are in one tree and not in another. -/
def putDown (before after : FileTree) : IO Unit := do
  let old := before.root.filesAt ⟨"/"⟩
  for (path, bytes) in after.root.filesAt ⟨"/"⟩ do
    unless old.contains (path, bytes) do
      IO.FS.createDirAll path.parent.text
      IO.FS.writeBinFile path.text ⟨bytes.toArray⟩

/-- Runs a command on the files on disk. -/
def perform (command : Command) : IO UInt32 := do
  let tree ← takeUpFor command.given
  let time ← Std.Time.Timestamp.now
  let outcome := run tree time.toSecondsSinceUnixEpoch.val command
  putDown tree outcome.tree
  match outcome.result with
  | .ok text =>
      IO.print text
      return 0
  | .error trail =>
      IO.eprintln (failureText trail)
      return 1

end Raml.CommandLine

/-- Runs the command that the arguments name. -/
def main (args : List String) : IO UInt32 := do
  match Raml.CommandLine.readArguments args with
  | .ok command => Raml.CommandLine.perform command
  | .error usage =>
      if usage.isAnswer then
        IO.println usage.message
        return 0
      IO.eprintln usage.message
      return 2
