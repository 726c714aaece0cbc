/-
This file defines object types whose fields come from a model. A field without a type gets that
of the model, and the model's default resolver unless its configuration settles the default. The
model's default fields are there from the start. Fields of operations are kept apart; they are
added to the query and mutation types when the type is finished.
-/

import SchemaAssembly.Model.Basic
import SchemaAssembly.ObjectType

namespace SchemaAssembly

/-- An object type with the model behind it and the fields of its operations. -/
structure ModelType where
  model : Model
  objectType : ObjectType
  operations : Mapping String (Root × Field)

namespace ModelType

/-- Whether a configuration settles the default resolver, be it with null. -/
def settlesDefault : FieldConfig → Bool
  | .mapping settings => settings.contains "defaultResolver"
  | _ => false

/-- The field with the type of the model where it has none of its own. -/
def withModelType (model : Model) (field : Field) : Field :=
  if field.type?.all ConfiguredType.isBlank then
    match model.typeOfField field.label with
    | some type => { field with type? := some (.written type) }
    | none => field
  else field

/-- The field with the default resolver of the model where it has none of its own. -/
def withModelResolver (model : Model) (config : FieldConfig) (field : Field) : Field :=
  if !settlesDefault config && field.defaultResolver.isNone then
    { field with defaultResolver := some model.defaultResolver }
  else field

/-- Makes a field with what the model knows about it. -/
def makeField (type : ModelType) (definition : String) (config : FieldConfig) :
    Except Failure Field :=
  match Field.make definition config type.objectType.wiring with
  | .ok field => .ok (withModelResolver type.model config (withModelType type.model field))
  | .error failure => .error failure

/-- Makes a field and adds it. -/
def addField (type : ModelType) (definition : String) (config : FieldConfig) :
    Except Failure ModelType :=
  match type.makeField definition config with
  | .ok field => .ok { type with objectType := type.objectType.addField field }
  | .error failure => .error failure

/-- Adds fields without configuration, and collects the problems of those that go wrong. -/
def addFields (type : ModelType) (definitions : List String) : ModelType × List Problem :=
  definitions.foldl
    (fun (before : ModelType × List Problem) definition =>
      match before.1.addField definition .empty with
      | .ok changed => (changed, before.2)
      | .error failure => (before.1, before.2 ++ failure.problems))
    (type, [])

/-- Adds fields with their types, up to the first that goes wrong. -/
def addTyped (type : ModelType) : List (String × String) → ModelType × Option Failure
  | [] => (type, none)
  | (definition, fieldType) :: rest =>
    match type.addField definition (.type (.written fieldType)) with
    | .ok changed => addTyped changed rest
    | .error failure => (type, some failure)

/-- Adds every field with a type that the model knows and that is not there yet. -/
def addAllFields (type : ModelType) : ModelType × Option Failure :=
  type.addTyped (type.model.allFields.members.filter fun field =>
    !type.objectType.hasField field.1)

/-- The type of a model, with the default fields of the model. -/
def ofModel (model : Model) (wiring : Wiring) : Except Failure ModelType :=
  let bare : ModelType := ⟨model, .empty model.typeName wiring, ∅⟩
  match bare.addTyped model.defaultFields.members with
  | (type, none) => .ok type
  | (_, some failure) => .error failure

/-- Removes the field with the given name. -/
def removeField (type : ModelType) (name : String) : ModelType :=
  { type with objectType := type.objectType.removeField name }

/-! ### Operations -/

/-- Makes the field of an operation and keeps it under the identifier of the operation. -/
def addOperation (type : ModelType) (identifier : String) (config : Json.Settings) :
    Except Failure ModelType :=
  match type.model.operations.find identifier config with
  | .error problem => .error (.single problem)
  | .ok operation =>
    match operation.makeField type.model.typeName config type.objectType.wiring with
    | .error failure => .error failure
    | .ok field =>
      .ok { type with operations := type.operations.set identifier (operation.root, field) }

/-- The field of an operation. -/
def operation? (type : ModelType) (identifier : String) : Option Field :=
  (type.operations.get? identifier).map Prod.snd

/-- The fields of the operations that live on a root type. -/
def operationsOn (type : ModelType) (root : Root) : List Field :=
  (type.operations.values.filter fun operation => operation.1 = root).map Prod.snd

/-- A root type with the fields of the operations that live on it. -/
def applyOperations (type : ModelType) (root : Root) (rootType : ObjectType) : ObjectType :=
  (type.operationsOn root).foldl ObjectType.addField rootType

/-- Builds the type. -/
def build (type : ModelType) : Except Failure BuiltObject :=
  type.objectType.build

end ModelType

end SchemaAssembly
