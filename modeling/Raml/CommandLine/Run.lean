import Raml.Cache
import Raml.CommandLine.Arguments
import Raml.Settings.Reader
import Raml.Source.Search

/-! What the command line does, given the files that are there. -/

namespace Raml.CommandLine

/-- How a command ends. -/
structure Outcome where
  /-- What is printed, or what went wrong, each with its causes behind it. -/
  result : Except (List String) String
  /-- The files that are there afterwards. -/
  tree : FileTree

/-- What is said of a command that failed. -/
def failureText (trail : List String) : String := "error: " ++ ": ".intercalate trail

/-- A part of a command, which may fail for a reason with causes behind it. -/
abbrev Step := Except (List String)

/-- Says what was being done when something went wrong. -/
def during {α : Type} (what : String) (step : Step α) : Step α := step.mapError (what :: ·)

/-- A step that fails with an error. -/
def ofError {α : Type} (result : Except Error α) : Step α := result.mapError Error.trail

/-- A step that fails at a file. -/
def ofFault {α : Type} (result : Except FileFault α) : Step α :=
  result.mapError fun fault => [fault.message]

/-- The settings in a file, or else the default ones, with what options say. -/
def settings (tree : FileTree) (given : Given) : Step Settings := do
  match given.path? "config" with
  | none => return given.override {}
  | some path =>
      let read : Except Error Settings := do
        Settings.read (← (tree.read path).mapError (.io path))
      return given.override (← during ("failed to load config " ++ path.text) (ofError read))

/-- The paths that inputs name. Patterns have to name some. -/
def inputPaths (tree : FileTree) (inputs : List String) : Step (List Path) := do
  let paths ← inputs.mapM fun input =>
    if Glob.looksLikePattern input then
      match tree.glob input with
      | .error fault => .error [fault.message]
      | .ok [] => .error ["glob pattern matched no files: " ++ input]
      | .ok paths => .ok paths
    else .ok [⟨input⟩]
  return paths.flatten

/-- Parses a file, with the cache if there is one. -/
def parseFile (p : Parser) (time : Int) (tree : FileTree) (path : Path)
    : Except Error Document × FileTree :=
  match p.settings.cacheDirectory with
  | some directory => p.cachedDocumentFile ⟨directory⟩ tree time path
  | none => (p.documentFile path, tree)

/-- Parses files one after the other, all of them even if one fails. -/
def parseFiles (p : Parser) (time : Int) (tree : FileTree)
    : List Path → List (Path × Except Error Document) × FileTree
  | [] => ([], tree)
  | path :: paths =>
      let (result, tree) := parseFile p time tree path
      let (results, tree) := parseFiles p time tree paths
      ((path, result) :: results, tree)

/-- Puts a file in its place, with the directories above it. -/
def writeOutput (tree : FileTree) (path : Path) (text : String) : Step FileTree := do
  let tree ←
    match path.parent? with
    | some above => during ("failed to create " ++ above.text) (ofFault (tree.makeDirectories above))
    | none => .ok tree
  during ("failed to write " ++ path.text) (ofFault (tree.write path (Bytes.ofText text)))

/-- One document as it is, several by their paths. -/
def combined (documents : List (Path × Document)) : Json :=
  match documents with
  | [(_, d)] => d.toJson
  | _ => .obj (Keyed.ofPairs (documents.map fun (path, d) => (path.text, d.toJson)))

/-- Every file has to have been parsed. -/
def parsed (results : List (Path × Except Error Document)) : Step (List (Path × Document)) :=
  results.mapM fun (path, result) => do
    return (path, ← during ("failed to parse " ++ path.text) (ofError result))

/-- Parses documents and prints them. -/
def runParse (tree : FileTree) (time : Int) (given : Given) : Outcome :=
  let prepared : Step (Parser × List Path) := do
    let settings ← settings tree given
    let inputs := (Keyed.get? given "input").getD []
    let paths ← during "failed to resolve input file paths" (inputPaths tree inputs)
    return ({ settings, source := tree.source }, paths)
  match prepared with
  | .error trail => ⟨.error trail, tree⟩
  | .ok (p, paths) =>
      let (results, tree) := parseFiles p time tree paths
      match parsed results with
      | .error trail => ⟨.error trail, tree⟩
      | .ok documents =>
          let json := combined documents
          let text := if Keyed.has given "compact" then json.compact else json.pretty
          match given.path? "out" with
          | none => ⟨.ok (text ++ "\n"), tree⟩
          | some path =>
              match writeOutput tree path text with
              | .error trail => ⟨.error trail, tree⟩
              | .ok tree => ⟨.ok "", tree⟩

/-- Reads a value: as JSON, or else as YAML. -/
def readValue (bytes : Bytes) : Step Value :=
  match Json.read bytes with
  | .ok j => .ok (.ofJson j)
  | .error _ =>
      match Yaml.read bytes with
      | .ok node => ofError (Value.ofNode node)
      | .error fault => .error [fault.message]

/-- Checks a value in a file against a type that a document declares. -/
def checkValue (tree : FileTree) (s : Settings) (given : Given) (input : Path) (d : Document)
    : Step String := do
  let typeName := (given.text? "type").getD ""
  let path := (given.path? "value").getD ⟨""⟩
  match d.library.getType? typeName with
  | none => throw ["type " ++ Text.quoted typeName ++ " is not declared in " ++ input.text]
  | some t =>
      let bytes ← during ("failed to read " ++ path.text) (ofFault (tree.read path))
      let value ← during ("failed to decode " ++ path.text) (readValue bytes)
      during (path.text ++ " does not match type " ++ typeName) (ofError (t.check value s.check))
      return "ok " ++ path.text ++ " matches " ++ typeName ++ "\n"

/-- Checks a value against a declared type. -/
def runCheck (tree : FileTree) (time : Int) (given : Given) : Outcome :=
  match settings tree given with
  | .error trail => ⟨.error trail, tree⟩
  | .ok s =>
      let input := (given.path? "input").getD ⟨""⟩
      let (result, tree) := parseFile { settings := s, source := tree.source } time tree input
      let checked : Step String := do
        let d ← during ("failed to parse " ++ input.text) (ofError result)
        checkValue tree s given input d
      ⟨checked, tree⟩

/-- Runs a command at a time, in seconds. -/
def run (tree : FileTree) (time : Int) : Command → Outcome
  | .parse given => runParse tree time given
  | .check given => runCheck tree time given

end Raml.CommandLine
