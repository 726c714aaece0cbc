/-
This file defines types as they are configured: as a text that is still to be read, or as a
reference to a type, which is used as it is.
-/

import SchemaAssembly.Grammar.TypeRef
import SchemaAssembly.Problem
import SchemaAssembly.Text.Blank

namespace SchemaAssembly

/-- Reads the type of something from a text; a mistake is reported for the given place. -/
def TypeRef.readFor (place text : String) : Except Problem TypeRef :=
  match TypeRef.parse text with
  | .ok type => .ok type
  | .error error => .error (.invalidTypeSyntax place text error.report)

/-- A type as it is configured. -/
inductive ConfiguredType
  | written (text : String)
  | settled (type : TypeRef)
  deriving DecidableEq

namespace ConfiguredType

/-- Whether nothing is configured: the text is blank. -/
def isBlank : ConfiguredType → Bool
  | .written text => Text.isBlank text
  | .settled _ => false

/-- The type; nothing but blanks is a missing one. -/
def resolve (place : String) : ConfiguredType → Except Problem TypeRef
  | .settled type => .ok type
  | .written text =>
    if Text.isBlank text then .error (.missingType place none) else TypeRef.readFor place text

/-- The type that may be configured; where none is, it is missing. -/
def resolve? (place : String) : Option ConfiguredType → Except Problem TypeRef
  | some type => type.resolve place
  | none => .error (.missingType place none)

end ConfiguredType

end SchemaAssembly
