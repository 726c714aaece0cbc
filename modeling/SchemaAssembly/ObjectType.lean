/-
This file defines object types: they collect fields, and are built into a definition together with
the binding of every field. A field that comes again only contributes its arguments.
-/

import SchemaAssembly.Field.Encoding

namespace SchemaAssembly

/-- An object type in the making. -/
structure ObjectType where
  name : String
  description : Option String
  fields : Keyed Field.label
  wiring : Wiring

/-- An object type that has been built: its definition, and the binding of each of its fields. -/
structure BuiltObject where
  definition : ObjectDefinition
  bindings : Mapping String Binding

namespace ObjectType

/-- An object type without fields. -/
def empty (name : String) (wiring : Wiring) : ObjectType := ⟨name, none, ∅, wiring⟩

/-- The place that an object type is, in a message. -/
def place (type : ObjectType) : String :=
  placeOfType type.name

/-- Whether there is a field with the given name. -/
def hasField (type : ObjectType) (name : String) : Bool :=
  type.fields.contains name

/-- Adds a field at the end; a field that is there under the name takes over its arguments. -/
def addField (type : ObjectType) (field : Field) : ObjectType :=
  match type.fields.find? field.label with
  | some present => { type with fields := type.fields.insert (present.merge field) }
  | none => { type with fields := type.fields.insert field }

/-- Makes a field and adds it. -/
def createField (type : ObjectType) (definition : String) (config : FieldConfig) :
    Except Failure ObjectType :=
  match Field.make definition config type.wiring with
  | .ok field => .ok (type.addField field)
  | .error failure => .error failure

/-- Writes a field in the place of the one with its name, else at the end. -/
def putField (type : ObjectType) (field : Field) : ObjectType :=
  { type with fields := type.fields.insert field }

/-- Removes the field with the given name. -/
def removeField (type : ObjectType) (name : String) : ObjectType :=
  { type with fields := type.fields.erase name }

/-- Creates the field of one entry of a fields mapping; an entry that goes wrong leaves the type
as it is. -/
def createFromEntry (type : ObjectType) (entry : String × Json) : ObjectType × List Problem :=
  match FieldConfig.ofJson? entry.2 with
  | none =>
    (type, [.invalidConfigValue type.place entry.1 "expected a type string or a mapping"])
  | some config =>
    match type.createField entry.1 config with
    | .ok changed => (changed, [])
    | .error failure => (type, failure.problems)

/-- Creates a field for every entry of a mapping from definitions to configurations, and collects
the problems of the entries that go wrong. -/
def createFields (type : ObjectType) (settings : Json.Settings) : ObjectType × List Problem :=
  settings.members.foldl
    (fun (before : ObjectType × List Problem) entry =>
      let after := before.1.createFromEntry entry
      (after.1, before.2 ++ after.2))
    (type, [])

/-! ### Building -/

/-- The problem of a type whose name is none. -/
def invalidName (type : ObjectType) : Problem :=
  .invalidConfigValue type.place "name" (Problem.quote type.name ++ " is not a valid type name")

/-- The problem of a type without fields. -/
def lackOfFields (type : ObjectType) : List Problem :=
  if type.fields.isEmpty then
    [.invalidConfigValue type.place "fields" "an object type needs at least one field"]
  else []

/-- Encodes a field of a type with the given name. Only a field that has a definition is asked for
its binding. -/
def buildField (owner : String) (field : Field) : Except Failure (FieldDefinition × Binding) := do
  let definition ← field.toDefinition
  let binding ← Problem.alone (field.binding owner)
  return (definition, binding)

/-- The fields that can be encoded, each with its binding, and the problems of the others. -/
def buildFields (owner : String) :
    List Field → List (Field × FieldDefinition × Binding) × List Problem
  | [] => ([], [])
  | field :: rest =>
    let others := buildFields owner rest
    match buildField owner field with
    | .ok built => ((field, built) :: others.1, others.2)
    | .error failure => (others.1, failure.problems ++ others.2)

/-- Builds an object type. It fails with all problems of the type and of its fields. -/
def build (type : ObjectType) : Except Failure BuiltObject :=
  let (built, fieldProblems) := buildFields type.name type.fields.members
  let problems := type.lackOfFields ++ fieldProblems
  match Name.ofText? type.name with
  | none => .error ⟨type.invalidName, problems⟩
  | some name =>
    Failure.settle problems {
      definition := ⟨type.description, name, built.map fun field => field.2.1⟩
      bindings := Keyed.ofList (built.map fun field => (field.1.label, field.2.2)) }

end ObjectType

end SchemaAssembly
