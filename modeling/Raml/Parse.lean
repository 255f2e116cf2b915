import Raml.Load
import Raml.Pass.Examples
import Raml.Pass.Fill
import Raml.Pass.Normalize
import Raml.Review

/-! From the text of a document to the document with everything in it resolved and checked. -/

namespace Raml

/-- What parsing needs: settings, and the files that documents name. -/
structure Parser where
  settings : Settings := {}
  source : Source := .empty

namespace Parser

/-- Resolves and checks a document as it is written. Its library counts as `target`, and bodies
without a media type get the ones given. -/
def resolve (p : Parser) (target : Target) (mediaTypes : Option (List String)) (d : Document)
    : Except Error Document := do
  let d := { d with library := ← d.library.load p.settings p.source d.directory }
  let d ← Pass.normalizeProperties.run target d
  let d ← (Pass.applyMediaTypes mediaTypes).run target d
  let d ← Pass.completeAnnotations.run target d
  let d ← Pass.nameAnnotations.run target d
  let d := { d with library := ← d.library.resolve }
  let d ← Pass.fillTypes.run target d
  let d ← Pass.fillTraits.run target d
  let d ← Pass.fillUriParameters.run target d
  let d := { d with library := ← d.library.materialize p.source d.directory }
  let d ← (Pass.fillExamples p.source).run target d
  Review.run p.settings target d
  return d

/-- Parses the text of a document; relative paths in it start from a directory. -/
def document (p : Parser) (bytes : Bytes) (directory : Path) : Except Error Document := do
  let d ← Decode.document (← p.settings.readNode bytes)
  p.resolve .api (some d.mediaType) { d with directory }

/-- Parses the text of a library. Bodies without a media type stay without, since only documents
give default ones. -/
def library (p : Parser) (bytes : Bytes) (directory : Path) : Except Error Library := do
  let library ← Decode.library (← p.settings.readNode bytes) ""
  return (← p.resolve .library none { library, directory }).library

/-- Parses the library in a file. -/
def libraryFile (p : Parser) (path : Path) : Except Error Library := do
  p.library (← p.source.readFile path) path.parent

end Parser

/-- The documents in a directory one after the other, with a line break behind each. -/
def Source.readDirectory (source : Source) (directory : Path) : Except Error Bytes := do
  let paths ← (source.documents directory).mapError (.io directory)
  let contents ← paths.mapM source.readFile
  return (contents.map (· ++ [0x0A])).flatten

/-- The text of a document and the directory that it starts from. A directory is the document made
of the files in it. -/
def Source.readDocument (source : Source) (path : Path) : Except Error (Bytes × Path) := do
  if source.isDirectory path then return (← source.readDirectory path, path)
  else return (← source.readFile path, path.parent)

/-- Parses the document in a file or a directory. -/
def Parser.documentFile (p : Parser) (path : Path) : Except Error Document := do
  let (bytes, directory) ← p.source.readDocument path
  p.document bytes directory

end Raml
