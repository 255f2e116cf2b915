import Raml.Check
import Raml.Path

/-! What can be set for parsing documents. -/

namespace Raml

structure Settings where
  /-- Whether the first line has to start with the mark of the format. -/
  checkVersion : Bool := false
  check : CheckOptions := {}
  ignoreUnusedAnnotations : Bool := false
  ignoreUnusedTraits : Bool := false
  /-- The directory of the cache, if parsed documents are kept. -/
  cacheDirectory : Option Path := none
  /-- How many lines around a fault are shown; a negative number shows none at all. -/
  excerptDistance : Int64 := 4
  deriving Inhabited

end Raml
