/-
This file defines the shortest decimal of a double: the decimal with the fewest digits among
those that read back as that double, and among several of that length the nearest one. All of it
is exact arithmetic on natural numbers.
-/

import SchemaAssembly.Number.Double

namespace SchemaAssembly

/-- A decimal: its digits, of which the last is not zero, and the power of ten of the first. -/
structure Decimal where
  digits : List Char
  exponent : Int
  deriving DecidableEq, Repr

namespace Magnitude

/-- The power of ten of the leading digit of a positive quotient that is not below `10 ^ -400`. -/
def leadingPower (numerator denominator : Nat) : Int :=
  ((Nat.toDigits 10 (numerator * Nat.pow 10 400 / denominator)).length : Int) - 401

/-- The bounds of the quotients that round to a magnitude, in quarter steps: the neighbour
below is half as far away when the significand is the least of its exponent. -/
def quarterBounds (magnitude : Magnitude) : Nat × Nat :=
  let centre := 4 * magnitude.significand
  let narrow :=
    2 * magnitude.significand == significandBound && leastExponent < magnitude.exponent
  (centre - (if narrow then 1 else 2), centre + 2)

/-- Whether `count * 10 ^ power` reads back as the magnitude. A bound itself does so when the
significand is even. -/
def readsBack (magnitude : Magnitude) (count : Nat) (power : Int) : Bool :=
  let quarter := magnitude.exponent - 2
  let decimal := count * Nat.pow 10 power.toNat * Nat.pow 2 (-quarter).toNat
  let unit := Nat.pow 2 quarter.toNat * Nat.pow 10 (-power).toNat
  let (low, high) := magnitude.quarterBounds
  if magnitude.significand % 2 == 0 then
    low * unit ≤ decimal && decimal ≤ high * unit
  else
    low * unit < decimal && decimal < high * unit

/-- The multiple of `10 ^ power` that reads back as the magnitude: of the two neighbours of the
magnitude on that grid the nearer one, and the even one when both are equally near. -/
def onGrid (magnitude : Magnitude) (power : Int) : Option Nat :=
  let numerator := magnitude.numerator * Nat.pow 10 (-power).toNat
  let denominator := magnitude.denominator * Nat.pow 10 power.toNat
  let below := numerator / denominator
  match magnitude.readsBack below power, magnitude.readsBack (below + 1) power with
  | true, true => some (roundedQuotient numerator denominator)
  | true, false => some below
  | false, true => some (below + 1)
  | false, false => none

/-- The finest grid that is ever needed has seventeen digits. -/
def longestDecimal : Nat := 17

/-- The shortest decimal that reads back as the magnitude: the coarsest grid with a multiple that
does so gives it. -/
def shortest (magnitude : Magnitude) : Decimal :=
  if magnitude.isZero then
    ⟨['0'], 0⟩
  else
    let leading := leadingPower magnitude.numerator magnitude.denominator
    let grids := (List.range longestDecimal).map fun (count : Nat) => leading - count
    match grids.findSome? fun power => (magnitude.onGrid power).map fun count => (count, power) with
    | some (count, power) =>
      let digits := Nat.toDigits 10 count
      ⟨(digits.reverse.dropWhile (· == '0')).reverse, power + (digits.length : Int) - 1⟩
    | none => ⟨['0'], 0⟩

end Magnitude

/-! ### Layout -/

/-- How a decimal is laid out: its leading power of ten decides between the positional form and
the form with an exponent. -/
structure DecimalLayout where
  leastPositional : Int
  greatestPositional : Int

namespace DecimalLayout

/-- Digits with the point after the first `power + 1` of them, and always a fraction part. -/
def positional (digits : List Char) (power : Int) : List Char :=
  if power < 0 then
    '0' :: '.' :: (List.replicate ((-power).toNat - 1) '0' ++ digits)
  else
    let whole := power.toNat + 1
    digits.take whole ++ List.replicate (whole - digits.length) '0' ++
      '.' :: (if digits.length ≤ whole then ['0'] else digits.drop whole)

/-- Digits with the point after the first, if there is a second, and a signed exponent. -/
def scientific (digits : List Char) (power : Int) : List Char :=
  digits.take 1 ++ (if digits.length ≤ 1 then [] else '.' :: digits.drop 1) ++
    'e' :: (if power < 0 then '-' else '+') :: Nat.toDigits 10 power.natAbs

/-- The text of a decimal. -/
def write (layout : DecimalLayout) (decimal : Decimal) : List Char :=
  if layout.leastPositional ≤ decimal.exponent && decimal.exponent ≤ layout.greatestPositional then
    positional decimal.digits decimal.exponent
  else
    scientific decimal.digits decimal.exponent

end DecimalLayout

end SchemaAssembly
