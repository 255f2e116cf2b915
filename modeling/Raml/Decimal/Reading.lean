/-! Numbers from decimal digits. Two ways of rounding are in use: to the nearest number, and by one
product or quotient with a power of ten, which may miss the nearest by a unit.
-/

namespace Raml.Decimal

/-- The number nearest to `digits * 10 ^ exponent`. Exponents far outside the range of finite
numbers are answered without computing the power. -/
def nearest (digits : Nat) (exponent : Int) : Float :=
  if digits = 0 then 0.0
  else
    let magnitude : Int := (Nat.toDigits 10 digits).length + exponent
    if magnitude > 400 then 1.0 / 0.0
    else if magnitude < -400 then 0.0
    else Float.ofScientific digits (exponent < 0) exponent.natAbs

/-- `10 ^ n` for the exponents of finite numbers. -/
def powerOfTen (n : Nat) : Float := nearest 1 n

/-- `significand * 10 ^ exponent` by one multiplication or division, after as many divisions by
`10 ^ 308` as it takes. `none` if the result is too large. -/
def scaled (significand : Float) (exponent : Int) : Option Float :=
  if exponent.natAbs ≤ 308 then
    if exponent < 0 then some (significand / powerOfTen exponent.natAbs)
    else
      let x := significand * powerOfTen exponent.natAbs
      if x.isInf then none else some x
  else if significand == 0.0 then some significand
  else if exponent > 0 then none
  else scaled (significand / powerOfTen 308) (exponent + 308)
termination_by exponent.natAbs

/-- The value of a digit. -/
def digitValue (c : Char) : Nat := c.toNat - '0'.toNat

/-- The number that a run of digits spells. -/
def digitsValue (cs : List Char) : Nat := cs.foldl (fun n c => 10 * n + digitValue c) 0

/-- A decimal numeral: sign, digits and the power of ten of the last one. -/
structure Numeral where
  negative : Bool
  digits : Nat
  exponent : Int

/-- The number nearest to a numeral. -/
def Numeral.toFloat (n : Numeral) : Float :=
  let x := nearest n.digits n.exponent
  if n.negative then -x else x

/-- An exponent mark, an optional sign and digits, or nothing. -/
def exponentPart? : List Char → Option Int
  | [] => some 0
  | 'e' :: cs | 'E' :: cs =>
      let (negative, ds) :=
        match cs with
        | '-' :: ds => (true, ds)
        | '+' :: ds => (false, ds)
        | ds => (false, ds)
      if ds.isEmpty || !ds.all Char.isDigit then none
      else
        let n : Int := digitsValue ds
        some (if negative then -n else n)
  | _ => none

/-- Digits with an optional point among or beside them, and an optional exponent. -/
def unsigned? (cs : List Char) : Option (Nat × Int) :=
  let whole := cs.takeWhile Char.isDigit
  let rest := cs.dropWhile Char.isDigit
  let (fraction, rest) :=
    match rest with
    | '.' :: r => (r.takeWhile Char.isDigit, r.dropWhile Char.isDigit)
    | r => ([], r)
  if whole.isEmpty && fraction.isEmpty then none
  else (exponentPart? rest).map fun e => (digitsValue (whole ++ fraction), e - fraction.length)

/-- A numeral with an optional sign. -/
def numeral? : List Char → Option Numeral
  | '-' :: cs => (unsigned? cs).map fun (d, e) => ⟨true, d, e⟩
  | '+' :: cs => (unsigned? cs).map fun (d, e) => ⟨false, d, e⟩
  | cs => (unsigned? cs).map fun (d, e) => ⟨false, d, e⟩

end Raml.Decimal
