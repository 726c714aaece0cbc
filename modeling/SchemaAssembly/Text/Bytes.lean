/-
This file counts the bytes that text takes in UTF-8. Places in a text and the lengths of its lines
are given in bytes, while the text itself is a list of characters.
-/

namespace SchemaAssembly.Text

/-- The number of bytes of some characters. -/
def byteCount : List Char → Nat
  | [] => 0
  | letter :: rest => letter.utf8Size + byteCount rest

/-- The bytes of a text are those of its parts. -/
theorem byteCount_append (front back : List Char) :
    byteCount (front ++ back) = byteCount front + byteCount back := by
  induction front with
  | nil => exact (Nat.zero_add _).symm
  | cons letter rest inductionHypothesis =>
    rw [List.cons_append, byteCount, byteCount, inductionHypothesis, Nat.add_assoc]

end SchemaAssembly.Text
