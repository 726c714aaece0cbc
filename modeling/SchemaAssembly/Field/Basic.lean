/-
This file defines the fields of object types and the operations on their parts.
-/

import SchemaAssembly.Argument
import SchemaAssembly.Resolver.Wiring

namespace SchemaAssembly

/-- A field: its name, the compact definition it was made from, its arguments, its type, and how
it is resolved. The wiring is the one that was in place when the field was made. -/
structure Field where
  name : Name
  definition : String
  arguments : Keyed Argument.name
  type? : Option ConfiguredType
  description : Option String
  resolver : Option Target
  defaultResolver : Option Target
  context : Mapping String Json
  wiring : Wiring

/-- The configuration of a field: its type alone, a mapping, or another field of which it takes
over the arguments. -/
inductive FieldConfig
  | type (type : ConfiguredType)
  | mapping (settings : Json.Settings)
  | template (field : Field)

namespace FieldConfig

/-- The keys that a mapping may have. -/
def keys : List String :=
  ["type", "args", "description", "resolver", "resolverContext", "defaultResolver"]

/-- The configuration that says nothing. -/
def empty : FieldConfig := .mapping ∅

/-- The configuration that a value is: null says nothing, a text is a type, an object a mapping.
Other values are no configuration. -/
def ofJson? : Json → Option FieldConfig
  | .null => some empty
  | .text content => some (.type (.written content))
  | .object members => some (.mapping (Keyed.ofList members))
  | _ => none

end FieldConfig

namespace Field

/-- The text under which a field is kept in an object type. -/
def label (field : Field) : String :=
  field.name.text

/-- The place that a field is, in a message. -/
def place (field : Field) : String :=
  placeOfField field.label

/-- Splits a compact definition into the name of the field and its arguments. An argument that is
defined again keeps its place and takes the later content. -/
def nameAndArguments (definition : String) : Except Problem (Name × Keyed Argument.name) :=
  match Signature.parse definition with
  | .ok signature => .ok (signature.name, Keyed.ofList (signature.arguments.map Argument.ofInline))
  | .error error => .error (.malformedDefinition definition error.report)

/-! ### Arguments -/

/-- Writes an argument: in the place of the one with its name, else at the end. -/
def putArgument (field : Field) (argument : Argument) : Field :=
  { field with arguments := field.arguments.insert argument }

/-- Removes the argument with the given name. -/
def removeArgument (field : Field) (name : String) : Field :=
  { field with arguments := field.arguments.erase name }

/-- Takes over the arguments of another field. Nothing else is taken over. -/
def merge (field other : Field) : Field :=
  { field with arguments := field.arguments.insertAll other.arguments.members }

/-- Adds an argument with a configuration, or applies the configuration to the argument that is
there under the name. -/
def configureArgument (field : Field) (name : String) (config : ArgumentConfig) :
    Field × Option Problem :=
  if !isName name then
    (field, some (Argument.invalidName field.label name))
  else
    match field.arguments.find? name with
    | some argument =>
      let (changed, problem) := argument.configure config field.label
      (field.putArgument changed, problem)
    | none =>
      match Argument.ofConfig name config field.label with
      | .ok argument => (field.putArgument argument, none)
      | .error problem => (field, some problem)

/-! ### Context -/

/-- Attaches a value to the field for its resolver. -/
def addContext (field : Field) (key : String) (value : Json) : Field :=
  { field with context := field.context.set key value }

/-- Attaches several values to the field for its resolver. -/
def addContexts (field : Field) (added : Mapping String Json) : Field :=
  { field with context := field.context.insertAll added.members }

end Field

end SchemaAssembly
