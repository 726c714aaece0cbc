/-
This file defines the constants that may stand as defaults of arguments, and how a JSON value
becomes one. Numbers keep the text they were written with, and an object keeps repeated keys.
-/

import SchemaAssembly.Name
import SchemaAssembly.Json.Basic

namespace SchemaAssembly

/-- A constant value. -/
inductive Constant
  | null
  | boolean (value : Bool)
  | enumMember (name : Name)
  | int (digits : String)
  | float (digits : String)
  | text (content : String)
  | list (items : List Constant)
  | object (members : List (Name × Constant))

namespace Constant

instance : Inhabited Constant := ⟨null⟩

/-- The constant that a bare name stands for: three names are words of the language, every other
one is a member of some enumeration. -/
def ofName (name : Name) : Constant :=
  if name.letters = "true".toList then .boolean true
  else if name.letters = "false".toList then .boolean false
  else if name.letters = "null".toList then .null
  else .enumMember name

mutual

/-- The constant of a JSON value; texts stay texts, so an enumeration member cannot be spelled.
The error is the first object key that is no name. -/
def ofJson : Json → Except String Constant
  | .null => .ok .null
  | .boolean value => .ok (.boolean value)
  | .number number => .ok (if number.isDouble then .float number.text else .int number.text)
  | .text content => .ok (.text content)
  | .array items => (ofItems items).map .list
  | .object members => (ofMembers members).map .object

/-- The constants of JSON values, up to the first that has none. -/
def ofItems : List Json → Except String (List Constant)
  | [] => .ok []
  | head :: rest =>
    match ofJson head with
    | .error key => .error key
    | .ok constant => (ofItems rest).map (constant :: ·)

/-- The members of a constant object, up to the first that has none. -/
def ofMembers : List (String × Json) → Except String (List (Name × Constant))
  | [] => .ok []
  | (key, head) :: rest =>
    match Name.ofText? key with
    | none => .error key
    | some name =>
      match ofJson head with
      | .error inner => .error inner
      | .ok constant => (ofMembers rest).map ((name, constant) :: ·)

end

end Constant

end SchemaAssembly
