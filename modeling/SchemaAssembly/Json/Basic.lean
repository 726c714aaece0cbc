/-
This file defines JSON values. An object keeps its members in order; its meaning as a mapping
gives every key its first place and its last value.
-/

import SchemaAssembly.Keyed
import SchemaAssembly.Json.Number

namespace SchemaAssembly

/-- A JSON value. -/
inductive Json
  | null
  | boolean (value : Bool)
  | number (value : Json.Number)
  | text (content : String)
  | array (items : List Json)
  | object (members : List (String × Json))

namespace Json

instance : Inhabited Json := ⟨null⟩

/-- A mapping of names to values, as configuration is given. -/
abbrev Settings := Mapping String Json

/-- The kind of a value, in the words of a message about a value of the wrong kind. -/
def kind : Json → String
  | .null => "null"
  | .boolean _ => "a boolean"
  | .number _ => "a number"
  | .text _ => "a string"
  | .array _ => "an array"
  | .object _ => "an object"

/-- The text of a value that is a text. -/
def text? : Json → Option String
  | .text content => some content
  | _ => none

/-- The members of a value that is an object. -/
def settings? : Json → Option Settings
  | .object members => some (Keyed.ofList members)
  | _ => none

end Json

end SchemaAssembly
