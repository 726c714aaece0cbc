/-
This file defines the case of letters on the tables of `Text.CaseTable`: the tests for capitals
and small letters, and the change of case of one character on its own, which may give several.
-/

import SchemaAssembly.Text.CaseTable

namespace SchemaAssembly.Text

/-- The property `Uppercase`. -/
def isCapital (letter : Char) : Bool :=
  capitals.any fun run => run.holds letter.toNat

/-- The property `Lowercase`. -/
def isSmall (letter : Char) : Bool :=
  smallLetters.any fun run => run.holds letter.toNat

/-- The other case of a character: the several characters that a spread lists, else the
character that a shift reaches, else the character itself. -/
def recased (shifts : List Shift) (spreads : List Spread) (letter : Char) : List Char :=
  match spreads.find? fun spread => spread.code == letter.toNat with
  | some spread => spread.written.map Char.ofNat
  | none =>
    match shifts.find? fun shift => shift.holds letter.toNat with
    | some shift => [Char.ofNat ((letter.toNat : Int) + shift.distance).toNat]
    | none => [letter]

/-- The small form of a character. -/
def lowered (letter : Char) : List Char :=
  recased loweringShifts loweringSpreads letter

/-- The capital form of a character. -/
def raised (letter : Char) : List Char :=
  recased raisingShifts raisingSpreads letter

/-- A text with its first character in capital form and the rest as it is. -/
def capitalized (text : String) : String :=
  match text.toList with
  | [] => ""
  | first :: rest => String.ofList (raised first ++ rest)

end SchemaAssembly.Text
