/-
This file defines what the commands print: the definition of a type with a single field, or of the
type of a data class from a catalog together with the root types of its operations. After each
definition a line per field tells what resolves it.
-/

import SchemaAssembly.Catalog.Reader
import SchemaAssembly.Model.ModelType
import SchemaAssembly.Sdl.Definition

namespace SchemaAssembly.CommandLine

/-- Why a command prints nothing. -/
inductive Refusal
  | badConfigText
  | badConfig
  | unreadableCatalog
  | badCatalog
  | failure (cause : Failure)

/-- The message of a refusal. -/
def Refusal.message : Refusal → String
  | .badConfigText => "Invalid --config JSON"
  | .badConfig => "--config must be a type string or a JSON object"
  | .unreadableCatalog => "Cannot read"
  | .badCatalog => "Invalid catalog"
  | .failure cause => cause.message

/-- The result of a step of the assembly as that of a command. -/
def refusing {α : Type} : Except Failure α → Except Refusal α
  | .ok value => .ok value
  | .error failure => .error (.failure failure)

/-- The wiring of the commands: the standard function resolves everything. -/
def wiring : Wiring := .start [Target.standard]

/-- The line that tells what resolves a field. -/
def bindingLine (type : Name) (binding : String × Binding) : String :=
  "# " ++ type.text ++ "." ++ binding.1 ++ " => " ++ binding.2.text ++ "\n"

/-- The text of a built type: its definition, and a line for every field. -/
def render (built : BuiltObject) : String :=
  built.definition.sdl ++
    String.join (built.bindings.members.map (bindingLine built.definition.name))

/-- The text of the type with one field, made from a definition and the text of a
configuration. -/
def buildField (definition config typeName : String) : Except Refusal String :=
  match Json.read? config with
  | none => .error .badConfigText
  | some value =>
    match FieldConfig.ofJson? value with
    | none => .error .badConfig
    | some config => refusing do
      let type ← (ObjectType.empty typeName wiring).createField definition config
      let built ← type.build
      return render built

/-- The type of a data class, with the fields and operations that are asked for. -/
def assemble (catalog : Catalog) (dataClass : String) (allFields : Bool)
    (operations : List String) : Except Failure ModelType := do
  let model ← Problem.alone (Model.ofCatalog dataClass catalog .standard .standard)
  let start ← ModelType.ofModel model wiring
  let complete ←
    if allFields then
      match start.addAllFields with
      | (type, none) => .ok type
      | (_, some failure) => .error failure
    else .ok start
  operations.foldlM (fun (type : ModelType) identifier => type.addOperation identifier ∅) complete

/-- The texts of a type and of those root types to which its operations contribute. -/
def sections (type : ModelType) : Except Failure (List String) := do
  let main ← type.build
  let roots := (Root.all.map fun root =>
    type.applyOperations root (.empty root.name wiring)).filter fun root => !root.fields.isEmpty
  let built ← roots.mapM ObjectType.build
  return (main :: built).map render

/-- The text of the type of a data class. The text of the catalog is missing when its file
cannot be read. -/
def buildModel (catalogText : Option String) (dataClass : String) (allFields : Bool)
    (operations : List String) : Except Refusal String :=
  match catalogText with
  | none => .error .unreadableCatalog
  | some text =>
    match Catalog.parse text with
    | none => .error .badCatalog
    | some catalog => refusing do
      let type ← assemble catalog dataClass allFields operations
      let texts ← sections type
      return String.intercalate "\n" texts

end SchemaAssembly.CommandLine
