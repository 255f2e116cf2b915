import Raml.Decimal.Shortest

/-! How the shortest digits of a number are laid out as text. -/

namespace Raml.Decimal

/-- The choices of one format of numbers. -/
structure Layout where
  /-- The exponents of the first digit that are written with a point in place. `none` means all. -/
  positional : Option (Int × Int)
  /-- The sign of a positive exponent. -/
  plus : String
  /-- Which of two numbers with as few digits is taken that are equally near. -/
  tie : Tie
  nan : String
  infinite : String

/-- Digits with a point after the first `point` of them, zeros filled in on either side, and at
least one digit after the point. -/
def withPoint (digits : List Char) (point : Int) : String :=
  if point ≤ 0 then
    "0." ++ String.ofList (List.replicate (-point).toNat '0' ++ digits)
  else if digits.length ≤ point.toNat then
    String.ofList (digits ++ List.replicate (point.toNat - digits.length) '0') ++ ".0"
  else
    String.ofList (digits.take point.toNat) ++ "." ++ String.ofList (digits.drop point.toNat)

/-- Digits with a point after the first and the exponent of the first. -/
def withExponent (layout : Layout) (digits : List Char) (exponent : Int) : String :=
  let head := String.ofList (digits.take 1)
  let tail := digits.drop 1
  let mantissa := if tail.isEmpty then head else head ++ "." ++ String.ofList tail
  let sign := if exponent < 0 then "-" else layout.plus
  mantissa ++ "e" ++ sign ++ toString exponent.natAbs

/-- The text of a positive finite number. -/
def Layout.positive (layout : Layout) (x : Float) : String :=
  let d := (Binary.ofFloat x).shortest layout.tie
  let (digits, _) := dropZeros (Nat.toDigits 10 d.digits)
  let written := (Nat.toDigits 10 d.digits).length
  let exponent := d.exponent + written - 1
  let inPlace :=
    match layout.positional with
    | none => true
    | some (least, most) => least ≤ exponent && exponent ≤ most
  if inPlace then withPoint digits (exponent + 1) else withExponent layout digits exponent

/-- Whether the sign bit of a number is set. -/
def isNegative (x : Float) : Bool := x.toBits ≥ 0x8000000000000000

/-- The text of a number. -/
def Layout.render (layout : Layout) (x : Float) : String :=
  if x.isNaN then layout.nan
  else
    let sign := if isNegative x then "-" else ""
    if x.isInf then sign ++ layout.infinite
    else if x == 0.0 then sign ++ "0.0"
    else sign ++ layout.positive x

end Raml.Decimal
