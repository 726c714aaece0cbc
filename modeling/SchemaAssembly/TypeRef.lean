/-
This file defines references to types: a named type or a list of some type, each of them
optional or required, and the text of a reference.
-/

import SchemaAssembly.Name

namespace SchemaAssembly

/-- A reference to a type. A required one, marked with an exclamation point, does not admit
null. -/
inductive TypeRef
  | named (name : Name) (required : Bool)
  | list (item : TypeRef) (required : Bool)
  deriving DecidableEq

namespace TypeRef

/-- The innermost name, inside all lists. -/
def innermost : TypeRef → Name
  | .named name _ => name
  | .list item _ => item.innermost

/-- Whether the reference is to a list. -/
def isList : TypeRef → Bool
  | .named _ _ => false
  | .list _ _ => true

/-- Whether the reference excludes null. -/
def isRequired : TypeRef → Bool
  | .named _ required => required
  | .list _ required => required

/-- The mark of a required type. -/
def mark (required : Bool) : List Char :=
  if required then ['!'] else []

/-- The characters of the text of a reference. -/
def letters : TypeRef → List Char
  | .named name required => name.letters ++ mark required
  | .list item required => '[' :: (item.letters ++ ']' :: mark required)

/-- The text of a reference, as in `[String!]!`. -/
def text (type : TypeRef) : String :=
  String.ofList type.letters

end TypeRef

end SchemaAssembly
