/-
This file says when fields and arguments have a definition, and which. The definition of a field
depends on its arguments through their definitions only, so it does not matter in which way these
came about.
-/

import Mathlib.Data.List.Forall2
import SchemaAssembly.Field.Encoding
import SchemaAssembly.Proofs.Problem

namespace SchemaAssembly

namespace Argument

/-- An argument is defined if it has a type and its name is valid. -/
theorem toDefinition_eq_ok_iff {argument : Argument} {field : String}
    {definition : ArgumentDefinition} :
    argument.toDefinition field = .ok definition ↔
      argument.resolvedType field = .ok definition.type ∧
        definition.name.text = argument.name ∧
        definition.description = argument.description ∧
        definition.default? = argument.default? := by
  obtain ⟨description, name, type, default?⟩ := definition
  unfold toDefinition
  cases argument.resolvedType field with
  | error problem => simp
  | ok resolved =>
    rw [← Name.ofText?_eq_some_iff]
    cases Name.ofText? argument.name with
    | none => simp
    | some valid =>
      simp only [Except.ok.injEq, ArgumentDefinition.mk.injEq, Option.some.injEq]
      constructor
      · rintro ⟨rfl, rfl, rfl, rfl⟩
        exact ⟨rfl, rfl, rfl, rfl⟩
      · rintro ⟨rfl, rfl, rfl, rfl⟩
        exact ⟨rfl, rfl, rfl, rfl⟩

end Argument

namespace Field

/-- Arguments are defined if each of them is. -/
theorem argumentDefinitions_eq_ok_iff {field : String} {arguments : List Argument}
    {definitions : List ArgumentDefinition} :
    argumentDefinitions field arguments = .ok definitions ↔
      List.Forall₂ (fun argument definition => argument.toDefinition field = .ok definition)
        arguments definitions := by
  induction arguments generalizing definitions with
  | nil => simp [argumentDefinitions, eq_comm]
  | cons first others inductionHypothesis =>
    rw [argumentDefinitions, List.forall₂_cons_left_iff]
    simp only [← inductionHypothesis]
    cases first.toDefinition field with
    | error problem => simp
    | ok definition =>
      cases argumentDefinitions field others with
      | error problem => simp [Except.map]
      | ok further => simp [Except.map, eq_comm]

theorem argumentDefinitions_congr {field : String} {first second : List Argument}
    (same : first.map (fun argument => argument.toDefinition field) =
      second.map fun argument => argument.toDefinition field) :
    argumentDefinitions field first = argumentDefinitions field second := by
  induction first generalizing second with
  | nil =>
    rw [List.map_nil, eq_comm, List.map_eq_nil_iff] at same
    rw [same]
  | cons head others inductionHypothesis =>
    cases second with
    | nil => cases same
    | cons next further =>
      rw [List.map_cons, List.map_cons, List.cons.injEq] at same
      rw [argumentDefinitions, argumentDefinitions, inductionHypothesis same.2, same.1]

theorem argumentProblems_eq (field : Field) :
    field.argumentProblems =
      (field.arguments.members.map fun argument => argument.toDefinition field.label).flatMap
        problemOf := by
  rw [argumentProblems, List.flatMap_map]

/-- A field has a definition if nothing stands in its way; the definition consists of those of its
arguments and of the type, under the name of the field. -/
theorem toDefinition_eq_ok_iff {field : Field} {definition : FieldDefinition} :
    field.toDefinition = .ok definition ↔
      field.problems = [] ∧ definition.name = field.name ∧
        definition.description = field.description ∧
        field.resolvedType = .ok definition.type ∧
        List.Forall₂ (fun argument definition => argument.toDefinition field.label = .ok definition)
          field.arguments.members definition.arguments := by
  obtain ⟨description, name, arguments, type⟩ := definition
  rw [← argumentDefinitions_eq_ok_iff]
  simp only [toDefinition, validate, Failure.bind_eq_ok_iff, Failure.settle_eq_ok_iff,
    Problem.alone_eq_ok_iff]
  constructor
  · rintro ⟨_, ⟨noProblems, _⟩, defined, allDefined, resolved, hasType, ⟨⟩⟩
    exact ⟨noProblems, rfl, rfl, hasType, allDefined⟩
  · rintro ⟨noProblems, rfl, rfl, hasType, allDefined⟩
    exact ⟨(), ⟨noProblems, trivial⟩, arguments, allDefined, type, hasType, rfl⟩

section Congruence

variable (field : Field) (definition : String) (arguments : Keyed Argument.name)

/-- Other arguments with the same definitions meet the same problems. -/
theorem problems_congr
    (same : arguments.members.map (fun argument => argument.toDefinition field.label) =
      field.arguments.members.map fun argument => argument.toDefinition field.label) :
    ({ field with definition := definition, arguments := arguments } : Field).problems =
      field.problems := by
  rw [problems, problems, argumentProblems_eq, argumentProblems_eq, ← same]
  rfl

theorem validate_congr
    (same : arguments.members.map (fun argument => argument.toDefinition field.label) =
      field.arguments.members.map fun argument => argument.toDefinition field.label) :
    ({ field with definition := definition, arguments := arguments } : Field).validate =
      field.validate := by
  rw [validate, validate, problems_congr field definition arguments same]

/-- Other arguments with the same definitions give the same definition. -/
theorem toDefinition_congr
    (same : arguments.members.map (fun argument => argument.toDefinition field.label) =
      field.arguments.members.map fun argument => argument.toDefinition field.label) :
    ({ field with definition := definition, arguments := arguments } : Field).toDefinition =
      field.toDefinition := by
  rw [toDefinition, toDefinition, validate_congr field definition arguments same,
    ← argumentDefinitions_congr same]
  rfl

end Congruence

end Field

end SchemaAssembly
