/-! The fewest decimal digits that read back as a binary number, and of those the nearest.

A finite number is taken apart into `mantissa * 2 ^ exponent`. The reals that round to it form an
interval around it; for one digit, two digits and so on, the two neighbours of the number on the
decimal grid are tried, in exact arithmetic, until one lies in the interval.
-/

namespace Raml.Decimal

/-- The value `mantissa * 2 ^ exponent`. -/
structure Binary where
  mantissa : Nat
  exponent : Int

/-- The highest of the fifty-three bits of a mantissa, which is not stored. -/
def leadingBit : Nat := 1 <<< 52

/-- The size of a finite number. -/
def Binary.ofFloat (x : Float) : Binary :=
  let bits := x.toBits.toNat
  let fraction := bits % leadingBit
  let scale := bits / leadingBit % 2048
  if scale = 0 then ⟨fraction, -1074⟩ else ⟨fraction + leadingBit, (scale : Int) - 1075⟩

/-- A positive number `digits * 10 ^ exponent`. -/
structure Digits where
  digits : Nat
  exponent : Int

/-- The interval of reals that round to a binary number, over a common denominator: the number
is `value / unit`, the interval reaches from `low / unit` to `high / unit`. -/
structure Rounding where
  value : Nat
  low : Nat
  high : Nat
  unit : Nat
  closed : Bool

/-- The reals nearer to `b` than to its neighbours, with the ends if the mantissa is even. Below a
power of two the neighbour is half as far away. -/
def Binary.rounding (b : Binary) : Rounding :=
  let below := if b.mantissa = leadingBit ∧ b.exponent ≠ -1074 then 1 else 2
  let shift := b.exponent - 2
  let up := 1 <<< shift.toNat
  { value := 4 * b.mantissa * up
    low := (4 * b.mantissa - below) * up
    high := (4 * b.mantissa + 2) * up
    unit := 1 <<< (-shift).toNat
    closed := b.mantissa % 2 == 0 }

/-- A power of ten. -/
def tenTo (n : Nat) : Nat := Nat.pow 10 n

/-- Whether `digits * 10 ^ exponent` rounds to the number. -/
def Rounding.holds (r : Rounding) (d : Digits) : Bool :=
  let scaled := d.digits * tenTo d.exponent.toNat * r.unit
  let down := tenTo (-d.exponent).toNat
  if r.closed then r.low * down ≤ scaled && scaled ≤ r.high * down
  else r.low * down < scaled && scaled < r.high * down

/-- The multiple of `10 ^ exponent` at or below the number. -/
def Rounding.floor (r : Rounding) (exponent : Int) : Nat :=
  r.value * tenTo (-exponent).toNat / (r.unit * tenTo exponent.toNat)

/-- Which way a number goes that is halfway between two on the grid. -/
inductive Tie where
  | even
  | up
  deriving DecidableEq, Inhabited

/-- Of the two neighbours `d` and `d + 1` on the grid, the one to take, if any reads back. -/
def Rounding.nearest? (r : Rounding) (tie : Tie) (exponent : Int) : Option Digits :=
  let below : Digits := ⟨r.floor exponent, exponent⟩
  let above : Digits := ⟨below.digits + 1, exponent⟩
  let size := r.unit * tenTo exponent.toNat
  let past := 2 * (r.value * tenTo (-exponent).toNat - below.digits * size)
  match r.holds below, r.holds above with
  | true, true =>
      if past < size ∨ (past = size ∧ tie = .even ∧ below.digits % 2 = 0) then some below
      else some above
  | true, false => some below
  | false, true => some above
  | false, false => none

/-- The least `e` with `value < 10 ^ e`, found by counting up from a lower bound. -/
def Rounding.magnitude (r : Rounding) : Nat → Int → Int
  | 0, e => e
  | steps + 1, e =>
      if r.value * tenTo (-e).toNat < r.unit * tenTo e.toNat then e else r.magnitude steps (e + 1)

/-- Tries one digit more at a time. -/
def Rounding.search (r : Rounding) (tie : Tie) (magnitude : Int) : Nat → Nat → Digits
  | 0, count => ⟨r.floor (magnitude - count), magnitude - count⟩
  | steps + 1, count =>
      match r.nearest? tie (magnitude - count) with
      | some d => d
      | none => r.search tie magnitude steps (count + 1)

/-- A lower bound of the decimal magnitude, from the binary one. -/
def Binary.leastMagnitude (b : Binary) : Int :=
  ((b.mantissa.log2 : Int) + b.exponent) * 30103 / 100000 - 1

/-- The shortest digits of a positive number. -/
def Binary.shortest (b : Binary) (tie : Tie) : Digits :=
  let r := b.rounding
  r.search tie (r.magnitude 6 b.leastMagnitude) 17 1

/-- A digit string without zeros at its end, and how many were dropped. -/
def dropZeros : List Char → List Char × Nat
  | [] => ([], 0)
  | c :: cs =>
      match dropZeros cs with
      | ([], n) => if c = '0' then ([], n + 1) else ([c], n)
      | (ds, n) => (c :: ds, n)

end Raml.Decimal
