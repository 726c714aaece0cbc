/-
This file defines models: what the assembly of a type has to know about the class of data behind
it. The model of a data class takes its answers from a catalog.
-/

import SchemaAssembly.Catalog.Basic
import SchemaAssembly.Model.Operation

namespace SchemaAssembly

/-- What is known about the class behind a type: the names of both, which fields there are and
which types they have, what resolves them, and which operations there are. -/
structure Model where
  typeName : String
  sourceClass : String
  hasField : String → Bool
  typeOfField : String → Option String
  allFields : Mapping String String
  defaultFields : Mapping String String
  defaultResolver : Target
  operations : Operations

namespace Model

/-- The model of a class of a catalog. -/
def ofCatalog (dataClass : String) (catalog : Catalog) (operations : Operations)
    (defaultResolver : Target) : Except Problem Model :=
  if catalog.hasClass dataClass then
    .ok {
      typeName := Spelling.unqualified dataClass
      sourceClass := dataClass
      hasField := catalog.hasField dataClass
      typeOfField := catalog.typeOfField dataClass
      allFields := catalog.schemaFields dataClass
      defaultFields := Keyed.ofList [("id", "ID")]
      defaultResolver := defaultResolver
      operations := operations }
  else .error (.notADataObject dataClass)

end Model

end SchemaAssembly
