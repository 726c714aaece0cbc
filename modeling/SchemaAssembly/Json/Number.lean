/-
This file defines the numbers of a JSON text: how a literal becomes a whole number or a double,
and the text in which a number is written. Whole numbers keep their decimal digits; a double is
written with the fewest digits that read back as it.
-/

import SchemaAssembly.Number.Natural
import SchemaAssembly.Number.Shortest

namespace SchemaAssembly.Json

/-- A number literal as written: the digits before the point, those after it if there is a
point, and the exponent if there is one. -/
structure NumberLiteral where
  negative : Bool
  whole : List Char
  fraction : Option (List Char)
  exponent : Option Int

/-- A number: a whole number of 64 bits, or a double. -/
inductive Number
  | whole (value : Int)
  | double (value : Double)
  deriving DecidableEq

namespace NumberLiteral

/-- Appends digits to a number as long as it has a place in 64 bits; gives the number and the
digits that no longer fit. -/
def absorbed (value : Nat) : List Char → Nat × List Char
  | [] => (value, [])
  | letter :: rest =>
    if 10 * value + Natural.digit letter < UInt64.size then
      absorbed (10 * value + Natural.digit letter) rest
    else (value, letter :: rest)

/-- The double nearest to a power of ten; the powers up to `10 ^ 308` have one. -/
def powerOfTen (power : Nat) : Magnitude :=
  (Magnitude.nearest (Nat.pow 10 power) 1).getD Magnitude.zero

/-- The largest power of ten by which one step scales. -/
def longestStep : Nat := 308

/-- A magnitude divided by so many of the largest steps, each of them rounded; once it is zero
it stays zero. -/
def shrunkBySteps : Nat → Magnitude → Option Magnitude
  | 0, magnitude => some magnitude
  | steps + 1, magnitude =>
    if magnitude.isZero then some magnitude
    else (magnitude.dividedBy (powerOfTen longestStep)).bind (shrunkBySteps steps)

/-- A magnitude divided by a power of ten: by largest steps as long as more than one remains,
then by the rest. -/
def shrunk (magnitude : Magnitude) (power : Nat) : Option Magnitude :=
  let steps := (power - 1) / longestStep
  (shrunkBySteps steps magnitude).bind fun smaller =>
    smaller.dividedBy (powerOfTen (power - longestStep * steps))

/-- A magnitude multiplied by a power of ten; there is none when no double is that large. -/
def grown (magnitude : Magnitude) (power : Nat) : Option Magnitude :=
  if power ≤ longestStep then magnitude.times (powerOfTen power)
  else if magnitude.isZero then some magnitude
  else none

/-- A magnitude scaled by a power of ten. -/
def scaled (magnitude : Magnitude) (power : Int) : Option Magnitude :=
  if power < 0 then shrunk magnitude (-power).toNat else grown magnitude power.toNat

/-- The double of a literal: the leading digits that fit into 64 bits are rounded to a double,
which is then scaled by the power of ten that the point, the exponent and the digits left out
before the point ask for. Digits left out after the point are ignored. -/
def toDouble (literal : NumberLiteral) : Option Double := do
  let (leading, cut) := absorbed 0 literal.whole
  let fraction := literal.fraction.getD []
  let (significand, ignored) := absorbed leading fraction
  let power : Int := (literal.exponent.getD 0) + cut.length - (fraction.length - ignored.length)
  let start ← Magnitude.nearest significand 1
  let magnitude ← scaled start power
  return ⟨literal.negative, magnitude⟩

/-- The number of a literal. Without point and exponent it is whole if it has a place in 64 bits,
signed or unsigned; negative zero is a double. A literal beyond the doubles has no number. -/
def toNumber (literal : NumberLiteral) : Option Number :=
  let value := Natural.ofDigits literal.whole
  if literal.fraction.isNone && literal.exponent.isNone then
    if literal.negative then
      if 0 < value && value ≤ UInt64.size / 2 then some (.whole (-(value : Int)))
      else literal.toDouble.map .double
    else if value < UInt64.size then some (.whole value)
    else literal.toDouble.map .double
  else
    literal.toDouble.map .double

end NumberLiteral

namespace Number

/-- Doubles are written positionally from a hundred-thousandth up to sixteen digits before the
point, else with an exponent. -/
def layout : DecimalLayout := ⟨-5, 15⟩

/-- The text of a number. -/
def text : Number → String
  | .whole value => (if value < 0 then "-" else "") ++ Nat.repr value.natAbs
  | .double value =>
    (if value.negative then "-" else "") ++ String.ofList (layout.write value.magnitude.shortest)

/-- Whether a number is a double. -/
def isDouble : Number → Bool
  | .whole _ => false
  | .double _ => true

end Number

end SchemaAssembly.Json
