/-
This file checks fields and encodes them: into a definition, and into the binding of the function
that resolves them.
-/

import SchemaAssembly.Field.Configuration
import SchemaAssembly.Resolver.Binding

namespace SchemaAssembly.Field

/-- The type of a field. -/
def resolvedType (field : Field) : Except Problem TypeRef :=
  ConfiguredType.resolve? field.place field.type?

/-- The problem of a result, if there is one. -/
def problemOf {α : Type} : Except Problem α → List Problem
  | .ok _ => []
  | .error problem => [problem]

/-- The problems of the type. A text that cannot be read counts as a missing type. -/
def typeProblems (field : Field) : List Problem :=
  match field.resolvedType with
  | .ok _ => []
  | .error (.invalidTypeSyntax _ text reason) =>
    [.missingType field.place (some (Problem.quote text ++ " does not parse, " ++ reason))]
  | .error problem => [problem]

/-- The problems of the arguments, in their order. -/
def argumentProblems (field : Field) : List Problem :=
  field.arguments.members.flatMap fun argument => problemOf (argument.toDefinition field.label)

/-- The targets that a field names: its resolver and its default resolver. -/
def targets (field : Field) : List Target :=
  field.resolver.toList ++ field.defaultResolver.toList

/-- All problems that stand in the way of encoding a field. -/
def problems (field : Field) : List Problem :=
  field.typeProblems ++
    field.argumentProblems ++
    field.targets.flatMap fun target => problemOf (Reference.check field.wiring.known target)

/-- Checks a field. -/
def validate (field : Field) : Except Failure Unit :=
  Failure.settle field.problems ()

/-- The reference to the function that resolves a field of a type: the resolver of the field if
it has one, else what the wiring knows. -/
def reference (field : Field) (owner : String) : Except Problem Reference :=
  match field.resolver with
  | some target => Reference.check field.wiring.known target
  | none =>
    match field.defaultResolver with
    | none => field.wiring.find owner field.label none
    | some target =>
      match Reference.check field.wiring.known target with
      | .ok reference => field.wiring.find owner field.label (some reference)
      | .error problem => .error problem

/-- The binding of a field of a type: the function that resolves it, to which the values of the
field's context are attached one after the other. -/
def binding (field : Field) (owner : String) : Except Problem Binding :=
  (field.reference owner).map fun reference =>
    field.context.members.foldl (fun binding entry => binding.addContext entry.1 entry.2)
      (.ofReference reference)

/-- The definitions of some arguments of a field, up to the first that has none. -/
def argumentDefinitions (field : String) :
    List Argument → Except Problem (List ArgumentDefinition)
  | [] => .ok []
  | argument :: rest =>
    match argument.toDefinition field with
    | .error problem => .error problem
    | .ok definition => (argumentDefinitions field rest).map (definition :: ·)

/-- The definition of a field, if nothing stands in its way. -/
def toDefinition (field : Field) : Except Failure FieldDefinition := do
  field.validate
  let arguments ← Problem.alone (argumentDefinitions field.label field.arguments.members)
  let type ← Problem.alone field.resolvedType
  return ⟨field.description, field.name, arguments, type⟩

end SchemaAssembly.Field
