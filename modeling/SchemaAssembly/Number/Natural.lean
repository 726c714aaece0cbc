/-
This file reads natural numbers from decimal digits: the digits at the start of a text, and the
value of digits.
-/

namespace SchemaAssembly.Natural

/-- The value of a digit. -/
def digit (letter : Char) : Nat :=
  letter.toNat - '0'.toNat

/-- The value of a digit sequence. -/
def ofDigits (digits : List Char) : Nat :=
  digits.foldl (fun value letter => 10 * value + digit letter) 0

/-- The digits at the start of a text, if there is at least one, and what follows. -/
def digits? (source : List Char) : Option (List Char × List Char) :=
  match source.takeWhile Char.isDigit with
  | [] => none
  | digits => some (digits, source.dropWhile Char.isDigit)

theorem digits?_shorter {source digits after : List Char}
    (read : digits? source = some (digits, after)) : after.length < source.length := by
  unfold digits? at read
  split at read
  · simp at read
  · next none =>
    cases read
    have whole := congrArg List.length
      (List.takeWhile_append_dropWhile (p := Char.isDigit) (l := source))
    have : 0 < (source.takeWhile Char.isDigit).length := List.length_pos_iff.mpr none
    rw [List.length_append] at whole
    omega

end SchemaAssembly.Natural
