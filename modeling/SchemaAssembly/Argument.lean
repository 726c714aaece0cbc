/-
This file defines the arguments of fields: how they are configured, step by step, and how they are
turned into definitions. A configuration that goes wrong may have taken effect up to the entry at
which it does.
-/

import SchemaAssembly.ConfiguredType
import SchemaAssembly.Definition
import SchemaAssembly.Grammar.Signature

namespace SchemaAssembly

/-- An argument of a field. -/
structure Argument where
  name : String
  type? : Option ConfiguredType
  default? : Option Constant
  description : Option String

/-- The configuration of an argument: its type alone, or a mapping. -/
inductive ArgumentConfig
  | type (type : ConfiguredType)
  | mapping (settings : Json.Settings)

namespace ArgumentConfig

/-- The keys that a mapping may have. -/
def keys : List String := ["type", "defaultValue", "description"]

end ArgumentConfig

/-- Several keys in a message. -/
def keyList (keys : List String) : String :=
  String.intercalate ", " keys

namespace Argument

/-- An argument about which nothing is known but its name. -/
def bare (name : String) : Argument := ⟨name, none, none, none⟩

/-- The argument of an inline definition. -/
def ofInline (inline : InlineArgument) : Argument :=
  ⟨inline.name.text, some (.settled inline.type), inline.default?, none⟩

/-! ### Configuration -/

/-- Applies one entry of a configuration. Entries under unknown keys do nothing. -/
def applyEntry (place : String) (argument : Argument) :
    String × Json → Except Problem Argument
  | ("type", .text type) => .ok { argument with type? := some (.written type) }
  | ("type", _) => .error (.invalidConfigValue place "type" "expected a type string")
  | ("defaultValue", .null) => .ok { argument with default? := none }
  | ("defaultValue", value) =>
    match Constant.ofJson value with
    | .ok constant => .ok { argument with default? := some constant }
    | .error key =>
      .error (.invalidConfigValue place "defaultValue"
        (Problem.quote key ++ " is not a valid input field name"))
  | ("description", .text description) => .ok { argument with description := some description }
  | ("description", .null) => .ok { argument with description := none }
  | ("description", _) => .error (.invalidConfigValue place "description" "expected a string")
  | _ => .ok argument

/-- Applies entries up to the first that is bad; gives the argument at that point and the
problem. -/
def applyEntries (place : String) (argument : Argument) :
    List (String × Json) → Argument × Option Problem
  | [] => (argument, none)
  | entry :: rest =>
    match applyEntry place argument entry with
    | .ok next => applyEntries place next rest
    | .error problem => (argument, some problem)

/-- Applies a configuration to an argument of a field. What a mapping does not mention stays as
it is; a key that is not known is refused before anything is applied. -/
def configure (argument : Argument) (config : ArgumentConfig) (field : String) :
    Argument × Option Problem :=
  let place := placeOfArgument argument.name field
  match config with
  | .type type => ({ argument with type? := some type }, none)
  | .mapping settings =>
    match settings.keys.find? fun key => !ArgumentConfig.keys.contains key with
    | some key =>
      (argument, some (.unrecognizedConfigKey place key (keyList ArgumentConfig.keys)))
    | none => applyEntries place argument settings.members

/-- A new argument with a configuration. -/
def ofConfig (name : String) (config : ArgumentConfig) (field : String) :
    Except Problem Argument :=
  match (bare name).configure config field with
  | (argument, none) => .ok argument
  | (_, some problem) => .error problem

/-! ### Definition -/

/-- The type of an argument of a field. -/
def resolvedType (argument : Argument) (field : String) : Except Problem TypeRef :=
  ConfiguredType.resolve? (placeOfArgument argument.name field) argument.type?

/-- The problem that a text is not the name of an argument. -/
def invalidName (field name : String) : Problem :=
  .invalidConfigValue (placeOfField field) "args"
    (Problem.quote name ++ " is not a valid argument name")

/-- The definition of an argument of a field. -/
def toDefinition (argument : Argument) (field : String) : Except Problem ArgumentDefinition :=
  match argument.resolvedType field with
  | .error problem => .error problem
  | .ok type =>
    match Name.ofText? argument.name with
    | none => .error (invalidName field argument.name)
    | some name => .ok ⟨argument.description, name, type, argument.default?⟩

end Argument

end SchemaAssembly
