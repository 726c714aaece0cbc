/-
This file relates the spelling of names in the data layer to that in the schema: a field name
starts with a small letter, where an acronym counts as one word, and a class is named without its
namespace.
-/

import SchemaAssembly.Text.Case

namespace SchemaAssembly.Spelling

/-- How many of the leading capitals belong to the first word: all of them, unless there are
several and a small letter follows, for then the last one begins the next word. -/
def firstWordCapitals (letters : List Char) : Nat :=
  let capitals := (letters.takeWhile Text.isCapital).length
  match letters.drop capitals with
  | next :: _ => if 1 < capitals && Text.isSmall next then capitals - 1 else capitals
  | [] => capitals

/-- The spelling of a field in the schema, as characters. -/
def fieldLetters (letters : List Char) : List Char :=
  (letters.take (firstWordCapitals letters)).flatMap Text.lowered ++
    letters.drop (firstWordCapitals letters)

/-- The spelling of a field in the schema: `Title` becomes `title` and `URLSegment` becomes
`urlSegment`. -/
def fieldName (name : String) : String :=
  String.ofList (fieldLetters name.toList)

/-- A class without its namespace: what follows the last backslash. -/
def unqualified (name : String) : String :=
  String.ofList (name.toList.reverse.takeWhile (· ≠ '\\')).reverse

end SchemaAssembly.Spelling
