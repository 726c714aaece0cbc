/-
This file defines the finite double-precision numbers as exact data, a significand times a power
of two, with the one rounding rule on which everything else rests: the nearest double of a
quotient, a tie going to the even significand. Products and quotients of doubles are rounded by
that rule.
-/

namespace SchemaAssembly

/-- The size of a finite double, `significand * 2 ^ exponent`. The significand stays below
`2 ^ 53`, and it reaches `2 ^ 52` unless the exponent is the least one. -/
structure Magnitude where
  significand : Nat
  exponent : Int
  deriving DecidableEq, Repr

/-- A finite double: a sign and a size. Zero has both signs. -/
structure Double where
  negative : Bool
  magnitude : Magnitude
  deriving DecidableEq, Repr

namespace Magnitude

/-- The exponent of the finest doubles. -/
def leastExponent : Int := -1074

/-- The exponent of the coarsest doubles. -/
def greatestExponent : Int := 971

/-- The significands lie below this bound. -/
def significandBound : Nat := Nat.pow 2 53

/-- The size of zero, which is written with the least exponent. -/
def zero : Magnitude := ⟨0, leastExponent⟩

/-- Whether a size is that of zero. -/
def isZero (magnitude : Magnitude) : Bool :=
  magnitude.significand == 0

/-- The numerator of a magnitude as a quotient of natural numbers. -/
def numerator (magnitude : Magnitude) : Nat :=
  magnitude.significand * Nat.pow 2 magnitude.exponent.toNat

/-- The denominator of a magnitude as a quotient of natural numbers. -/
def denominator (magnitude : Magnitude) : Nat :=
  Nat.pow 2 (-magnitude.exponent).toNat

/-! ### Rounding -/

/-- A quotient rounded to a whole number, a tie going to the even one. -/
def roundedQuotient (numerator denominator : Nat) : Nat :=
  let whole := numerator / denominator
  let doubled := 2 * (numerator % denominator)
  if denominator < doubled || (doubled == denominator && whole % 2 == 1) then whole + 1 else whole

/-- The exponent at which the whole part of a quotient has 53 binary digits, or the least
exponent where that is larger. -/
def fittingExponent (numerator denominator : Nat) : Int :=
  let low := (numerator.log2 : Int) - denominator.log2 - 53
  let whole := numerator * Nat.pow 2 (-low).toNat / (denominator * Nat.pow 2 low.toNat)
  max (if whole < significandBound then low else low + 1) leastExponent

/-- The double nearest to a quotient, a tie going to the even significand; there is none when
the quotient lies beyond the largest double by half a step or more. -/
def nearest (numerator denominator : Nat) : Option Magnitude :=
  if numerator == 0 then
    some zero
  else
    let exponent := fittingExponent numerator denominator
    let significand :=
      roundedQuotient (numerator * Nat.pow 2 (-exponent).toNat)
        (denominator * Nat.pow 2 exponent.toNat)
    let rounded : Magnitude :=
      if significand == significandBound then ⟨significandBound / 2, exponent + 1⟩
      else ⟨significand, exponent⟩
    if rounded.exponent ≤ greatestExponent then some rounded else none

/-- The product of two doubles, rounded to the nearest double. -/
def times (first second : Magnitude) : Option Magnitude :=
  nearest (first.numerator * second.numerator) (first.denominator * second.denominator)

/-- The quotient of two doubles, rounded to the nearest double. -/
def dividedBy (first second : Magnitude) : Option Magnitude :=
  nearest (first.numerator * second.denominator) (first.denominator * second.numerator)

end Magnitude

end SchemaAssembly
