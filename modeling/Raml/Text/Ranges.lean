/-! Sets of characters given by the code points at which membership changes. -/

namespace Raml.Text

/-- The number of entries of the ascending array `bounds` that are at most `n`, found by halving
the stretch `lo ..< hi` that can hold the answer. -/
def countUpTo (bounds : Array Nat) (n lo hi : Nat) : Nat :=
  if h : lo < hi then
    let mid := (lo + hi) / 2
    if bounds.getD mid 0 ≤ n then countUpTo bounds n (mid + 1) hi
    else countUpTo bounds n lo mid
  else lo
termination_by hi - lo

/-- Membership in the set whose ranges start and stop at the entries of `bounds` in turn. -/
def inRanges (bounds : Array Nat) (c : Char) : Bool :=
  countUpTo bounds c.toNat 0 bounds.size % 2 == 1

end Raml.Text
