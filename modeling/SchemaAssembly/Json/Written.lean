/-
This file defines JSON as written: the tree of a text before any of its parts is evaluated.
A part may be well formed and yet have no value: a number beyond the doubles, a string with half
of a surrogate pair, a nesting deeper than the reader allows. A part that nobody asks for is never
evaluated, so it does no harm there. A repeated key is still visible in the tree; evaluation keeps
its last value in its first place.
-/

import SchemaAssembly.Json.Basic
import SchemaAssembly.Text.Escape

namespace SchemaAssembly.Json

/-- One unit of a string literal: a character, or a unit of sixteen bits written as an escape. -/
inductive StringUnit
  | plain (letter : Char)
  | escaped (code : Nat)

namespace StringUnit

open Text

/-- The first halves of surrogate pairs. -/
def isHighSurrogate (code : Nat) : Bool :=
  firstHighSurrogate ≤ code && code < firstLowSurrogate

/-- The second halves of surrogate pairs. -/
def isLowSurrogate (code : Nat) : Bool :=
  firstLowSurrogate ≤ code && code < afterSurrogates

/-- The code that two halves of a surrogate pair stand for: ten bits from each, above the codes of
sixteen bits. -/
def joined (high low : Nat) : Nat :=
  0x10000 + (high - firstHighSurrogate) * 0x400 + (low - firstLowSurrogate)

/-- The characters that units stand for. Two escaped halves of a surrogate pair stand for one
character; a half on its own stands for none, so that the units have no text. -/
def decoded : List StringUnit → Option (List Char)
  | [] => some []
  | .plain letter :: rest => (decoded rest).map (letter :: ·)
  | .escaped high :: .escaped low :: rest =>
    if isHighSurrogate high then
      if isLowSurrogate low then
        (decoded rest).map (Char.ofNat (joined high low) :: ·)
      else none
    else if isLowSurrogate high then none
    else (decoded (.escaped low :: rest)).map (Char.ofNat high :: ·)
  | .escaped code :: rest =>
    if isSurrogate code then none
    else (decoded rest).map (Char.ofNat code :: ·)

end StringUnit

/-- A JSON text as a tree. -/
inductive Written
  | null
  | boolean (value : Bool)
  | number (literal : NumberLiteral)
  | text (units : List StringUnit)
  | array (items : List Written)
  | object (members : List (List StringUnit × Written))

namespace Written

/-- The text of string units. -/
def stringOf (units : List StringUnit) : Option String :=
  (StringUnit.decoded units).map String.ofList

mutual

/-- The value of a written part, if every part of it has one and arrays and objects are nested
at most `levels` deep. -/
def value? (levels : Nat) : Written → Option Json
  | .null => some .null
  | .boolean value => some (.boolean value)
  | .number literal => literal.toNumber.map .number
  | .text units => (stringOf units).map .text
  | .array items =>
    match levels with
    | 0 => none
    | inner + 1 => (values? inner items).map .array
  | .object members =>
    match levels with
    | 0 => none
    | inner + 1 =>
      (members? inner members).map fun evaluated =>
        .object (Keyed.ofList evaluated : Settings).members

/-- The values of written parts, if each has one. -/
def values? (levels : Nat) : List Written → Option (List Json)
  | [] => some []
  | head :: rest => do
    let value ← value? levels head
    let others ← values? levels rest
    return value :: others

/-- The members of a written object, if each key and each value has a meaning. -/
def members? (levels : Nat) : List (List StringUnit × Written) → Option (List (String × Json))
  | [] => some []
  | (units, head) :: rest => do
    let key ← stringOf units
    let value ← value? levels head
    let others ← members? levels rest
    return (key, value) :: others

end

end Written

end SchemaAssembly.Json
