/-! Excerpts of texts: the lines around one of them. -/

namespace Raml.Text

/-- The lines of a text. A line break at the end starts one more. -/
def lines (text : String) : List String := (text.toList.splitOn '\n').map String.ofList

/-- A number that is negative counts as zero. -/
def clamp (i : Int64) : Nat := i.toInt.toNat

/-- The lines of a text from `distance` before a line to `distance` behind it, as far as there are
any. Lines are counted from one. Bounds are words of 64 bits, which wrap. -/
def excerpt (text : String) (line : Nat) (distance : Int64) : String :=
  let all := lines text
  let line := Int64.ofNat line
  let stop := clamp (min (line + distance) (Int64.ofNat all.length))
  let start := min (clamp (line - distance - 1)) stop
  "\n".intercalate ((all.take stop).drop start)

end Raml.Text
