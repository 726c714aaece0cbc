/-
This file defines what is reported when a text does not follow the syntax: the place, counted in
bytes, and the character that stands there.
-/

import SchemaAssembly.Text.Bytes

namespace SchemaAssembly

/-- A violation of the syntax: the number of bytes before it, and the character found there, if
it is not the end of the text. -/
structure SyntaxError where
  offset : Nat
  found : Option Char
  deriving DecidableEq

namespace SyntaxError

/-- The violation at the place where `rest` is left of a source. -/
def before (source rest : List Char) : SyntaxError :=
  ⟨Text.byteCount source - Text.byteCount rest, rest.head?⟩

/-- What was not expected. -/
def message (error : SyntaxError) : String :=
  match error.found with
  | some letter => "unexpected \"" ++ String.singleton letter ++ "\""
  | none => "unexpected end of input"

/-- What was not expected, and where: columns count bytes from one. -/
def report (error : SyntaxError) : String :=
  error.message ++ " at column " ++ Nat.repr (error.offset + 1)

end SyntaxError

end SchemaAssembly
