/-
This file applies configurations to fields. A mapping with an unknown key is refused as a whole.
Otherwise every entry is applied that can be, and the problems of the others are collected, so a
configuration that fails may still have changed the field.
-/

import SchemaAssembly.Field.Basic

namespace SchemaAssembly.Field

/-- What a step makes of a field, and the problems that it met. -/
abbrev Outcome := Field × List Problem

/-- Takes steps one after the other, for the members of a list, and collects their problems. -/
def applyAll {α : Type} (step : Field → α → Outcome) (field : Field) (steps : List α) : Outcome :=
  steps.foldl
    (fun (before : Outcome) member =>
      let after := step before.1 member
      (after.1, before.2 ++ after.2))
    (field, [])

/-- Applies one entry of an arguments mapping: false removes the argument, a type or a mapping
configures it. -/
def applyArgument (field : Field) (entry : String × Json) : Outcome :=
  match entry with
  | (name, .boolean false) => (field.removeArgument name, [])
  | (name, .text type) =>
    let (changed, problem) := field.configureArgument name (.type (.written type))
    (changed, problem.toList)
  | (name, .object members) =>
    let (changed, problem) := field.configureArgument name (.mapping (Keyed.ofList members))
    (changed, problem.toList)
  | (name, _) =>
    (field, [.invalidConfigValue field.place "args"
      ("argument " ++ Problem.quote name ++ " must be a type string, a mapping or false")])

/-- Applies an arguments mapping. -/
def applyArguments (field : Field) (settings : Json.Settings) : Outcome :=
  applyAll applyArgument field settings.members

/-- The target of a configuration value under a key. -/
def readTarget (field : Field) (key : String) (value : Json) : Except Problem (Option Target) :=
  match Target.ofJson value with
  | .ok target => .ok target
  | .error reason => .error (.invalidResolverShape field.label key reason)

/-- The outcome of an entry whose value is bad: the field is as it was. -/
def refuse (field : Field) (key reason : String) : Outcome :=
  (field, [.invalidConfigValue field.place key reason])

/-- Applies one entry of a configuration. Entries under unknown keys do nothing. -/
def applyEntry (field : Field) (entry : String × Json) : Outcome :=
  match entry with
  | ("type", .text type) => ({ field with type? := some (.written type) }, [])
  | ("type", _) => field.refuse "type" "expected a type string"
  | ("args", .object members) => field.applyArguments (Keyed.ofList members)
  | ("args", .null) => (field, [])
  | ("args", _) => field.refuse "args" "expected a mapping of argument names"
  | ("description", .text description) => ({ field with description := some description }, [])
  | ("description", .null) => ({ field with description := none }, [])
  | ("description", _) => field.refuse "description" "expected a string"
  | ("resolver", value) =>
    match field.readTarget "resolver" value with
    | .ok target => ({ field with resolver := target }, [])
    | .error problem => (field, [problem])
  | ("defaultResolver", value) =>
    match field.readTarget "defaultResolver" value with
    | .ok target => ({ field with defaultResolver := target }, [])
    | .error problem => (field, [problem])
  | ("resolverContext", .object members) =>
    (field.addContexts (Keyed.ofList members), [])
  | ("resolverContext", .null) => (field, [])
  | ("resolverContext", _) => field.refuse "resolverContext" "expected a mapping"
  | _ => (field, [])

/-- The problems of the keys that are not known. -/
def unknownKeys (field : Field) (settings : Json.Settings) : List Problem :=
  (settings.keys.filter fun key => !FieldConfig.keys.contains key).map fun key =>
    .unrecognizedConfigKey field.place key (keyList FieldConfig.keys)

/-- Applies a configuration. -/
def configure (field : Field) : FieldConfig → Outcome
  | .type type => ({ field with type? := some type }, [])
  | .template other => (field.merge other, [])
  | .mapping settings =>
    match field.unknownKeys settings with
    | [] => applyAll applyEntry field settings.members
    | problems => (field, problems)

/-- Makes a field from a compact definition and a configuration. -/
def make (definition : String) (config : FieldConfig) (wiring : Wiring) : Except Failure Field :=
  match nameAndArguments definition with
  | .error problem => .error (.single problem)
  | .ok (name, arguments) =>
    let bare : Field := ⟨name, definition, arguments, none, none, none, none, ∅, wiring⟩
    let (field, problems) := bare.configure config
    Failure.settle problems field

end SchemaAssembly.Field
