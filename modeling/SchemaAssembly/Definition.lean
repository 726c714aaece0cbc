/-
This file defines what a finished object type consists of: definitions of the type, of its fields
and of their arguments. They are built from names and type references, so none of them can hold a
name that is not valid.
-/

import SchemaAssembly.TypeRef
import SchemaAssembly.Constant

namespace SchemaAssembly

/-- The definition of an argument. -/
structure ArgumentDefinition where
  description : Option String
  name : Name
  type : TypeRef
  default? : Option Constant

/-- The definition of a field. -/
structure FieldDefinition where
  description : Option String
  name : Name
  arguments : List ArgumentDefinition
  type : TypeRef

/-- The definition of an object type. -/
structure ObjectDefinition where
  description : Option String
  name : Name
  fields : List FieldDefinition

end SchemaAssembly
