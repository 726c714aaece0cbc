/-
This file reads a JSON text. The lexemes are taken one by one, with a stack of the arrays and
objects that are still open, so the reading follows the lexemes and needs no measure.
-/

import SchemaAssembly.Json.Lexeme

namespace SchemaAssembly.Json

namespace Written

/-- An array or object that is still open, with what it holds so far, the latest first. -/
inductive Frame
  | array (items : List Written)
  | member (members : List (List StringUnit × Written)) (key : List StringUnit)

/-- What the next lexeme has to be. -/
inductive Expected
  | value
  | firstItem
  | firstKey (members : List (List StringUnit × Written))
  | key (members : List (List StringUnit × Written))
  | colon (members : List (List StringUnit × Written)) (key : List StringUnit)
  | after (value : Written)

/-- A lexeme that begins a value. -/
def start (pending : List Frame) : Lexeme → Option (Expected × List Frame)
  | .arrayStart => some (.firstItem, .array [] :: pending)
  | .objectStart => some (.firstKey [], pending)
  | .null => some (.after .null, pending)
  | .boolean value => some (.after (.boolean value), pending)
  | .number literal => some (.after (.number literal), pending)
  | .text units => some (.after (.text units), pending)
  | _ => none

/-- One lexeme: what is expected next and which arrays and objects are open then. -/
def step : Expected → List Frame → Lexeme → Option (Expected × List Frame)
  | .value, pending, lexeme => start pending lexeme
  | .firstItem, .array [] :: pending, .arrayEnd => some (.after (.array []), pending)
  | .firstItem, pending, lexeme => start pending lexeme
  | .firstKey members, pending, .objectEnd => some (.after (.object members.reverse), pending)
  | .firstKey members, pending, .text key => some (.colon members key, pending)
  | .key members, pending, .text key => some (.colon members key, pending)
  | .colon members key, pending, .colon => some (.value, .member members key :: pending)
  | .after value, .array items :: pending, .comma =>
    some (.value, .array (value :: items) :: pending)
  | .after value, .array items :: pending, .arrayEnd =>
    some (.after (.array (value :: items).reverse), pending)
  | .after value, .member members key :: pending, .comma =>
    some (.key ((key, value) :: members), pending)
  | .after value, .member members key :: pending, .objectEnd =>
    some (.after (.object ((key, value) :: members).reverse), pending)
  | _, _, _ => none

/-- Reads the lexemes that are left; the text is complete when a value has been read and nothing
is open. -/
def run : Expected → List Frame → List Lexeme → Option Written
  | .after value, [], [] => some value
  | _, _, [] => none
  | expected, pending, lexeme :: rest =>
    match step expected pending lexeme with
    | some (next, stack) => run next stack rest
    | none => none

/-- Reads a text that holds one JSON value and nothing else but white space. -/
def read? (source : String) : Option Written :=
  (Lexeme.all? source.toList).bind (run .value [])

end Written

/-- The deepest nesting of arrays and objects that a text may have to be evaluated. -/
def deepest : Nat := 127

/-- The value of a JSON text. -/
def read? (source : String) : Option Json :=
  (Written.read? source).bind (Written.value? deepest)

end SchemaAssembly.Json
