/-
This file says what the checks of a field find. The validation of a field is the only one that its
definition needs: a field that passes it has a definition, and one that does not has the same
failure for a definition. The kind of a problem tells which check it comes from, so the question
who resolves a field is the only one that can end without a resolver.
-/

import SchemaAssembly.Proofs.Field.Encoding
import SchemaAssembly.Proofs.Resolver.History

namespace SchemaAssembly

/-! ### Kinds of problems -/

/-- A type that is not configured is missing, and one that is configured may not be readable. -/
theorem ConfiguredType.code_of_resolve?_eq_error {place : String} {type? : Option ConfiguredType}
    {problem : Problem} (refused : resolve? place type? = .error problem) :
    problem.code = .missingType ∨ problem.code = .invalidTypeSyntax := by
  cases type? with
  | none =>
    cases refused
    exact Or.inl rfl
  | some type =>
    cases type with
    | settled type => cases refused
    | written text =>
      rw [resolve?, resolve] at refused
      split at refused
      · cases refused
        exact Or.inl rfl
      · unfold TypeRef.readFor at refused
        split at refused
        · cases refused
        · cases refused
          exact Or.inr rfl

theorem Reference.code_of_check_eq_error {known : KnownTargets} {target : Target}
    {problem : Problem} (refused : check known target = .error problem) :
    problem.code = .unresolvableCallable := by
  unfold check at refused
  split at refused
  · cases refused
    rfl
  · split at refused
    · cases refused
      rfl
    · split at refused
      · cases refused
      · split at refused <;> cases refused <;> rfl

theorem Argument.code_of_toDefinition_eq_error {argument : Argument} {field : String}
    {problem : Problem} (refused : argument.toDefinition field = .error problem) :
    problem.code ∈ [.missingType, .invalidTypeSyntax, .invalidConfigValue] := by
  unfold toDefinition at refused
  split at refused
  · next untyped =>
    cases refused
    rcases ConfiguredType.code_of_resolve?_eq_error untyped with isMissing | isUnreadable
    · simp [isMissing]
    · simp [isUnreadable]
  · split at refused
    · cases refused
      simp [invalidName, Problem.code]
    · cases refused

namespace Field

/-! ### The problems of a field -/

theorem mem_problemOf_iff {α : Type} {result : Except Problem α} {problem : Problem} :
    problem ∈ problemOf result ↔ result = .error problem := by
  cases result <;> simp [problemOf, eq_comm]

theorem problemOf_eq_nil_iff {α : Type} {result : Except Problem α} :
    problemOf result = [] ↔ ∃ value, result = .ok value := by
  cases result <;> simp [problemOf]

/-- The type of a field is missing, be it that it is not configured or that it cannot be read. -/
theorem code_of_mem_typeProblems {field : Field} {problem : Problem}
    (found : problem ∈ field.typeProblems) : problem.code = .missingType := by
  unfold typeProblems at found
  split at found
  · cases found
  · rw [List.mem_singleton.mp found]
    rfl
  · next other readable untyped =>
    rw [List.mem_singleton.mp found]
    refine (ConfiguredType.code_of_resolve?_eq_error untyped).resolve_right fun isUnreadable => ?_
    cases other with
    | invalidTypeSyntax place type reason => exact readable place type reason rfl
    | _ => cases isUnreadable

theorem typeProblems_eq_nil_iff {field : Field} :
    field.typeProblems = [] ↔ ∃ type, field.resolvedType = .ok type := by
  unfold typeProblems
  split
  · next type resolved => exact iff_of_true rfl ⟨type, resolved⟩
  · next untyped => simp [untyped]
  · next untyped => simp [untyped]

/-- A check of a field finds a type that is missing or cannot be read, an argument without a valid
name, or a target that is not usable. -/
theorem code_of_mem_problems {field : Field} {problem : Problem}
    (found : problem ∈ field.problems) :
    problem.code ∈
      [.missingType, .invalidTypeSyntax, .invalidConfigValue, .unresolvableCallable] := by
  rw [problems, List.mem_append, List.mem_append] at found
  rcases found with (ofType | ofArguments) | ofTargets
  · simp [code_of_mem_typeProblems ofType]
  · obtain ⟨argument, -, isProblem⟩ := List.mem_flatMap.mp ofArguments
    have ofKind := Argument.code_of_toDefinition_eq_error (mem_problemOf_iff.mp isProblem)
    exact List.mem_append_left [ProblemCode.unresolvableCallable] ofKind
  · obtain ⟨target, -, isProblem⟩ := List.mem_flatMap.mp ofTargets
    simp [Reference.code_of_check_eq_error (mem_problemOf_iff.mp isProblem)]

theorem ne_noResolverFound_of_mem_problems {field : Field} {problem : Problem}
    (found : problem ∈ field.problems) (type name : String) :
    problem ≠ .noResolverFound type name := by
  rintro rfl
  have ofKind : ProblemCode.noResolverFound ∈ _ := code_of_mem_problems found
  exact absurd ofKind (by decide)

/-! ### Validation and definition -/

theorem validate_eq_ok_iff {field : Field} : field.validate = .ok () ↔ field.problems = [] := by
  rw [validate, Failure.settle_eq_ok_iff, and_iff_left rfl]

theorem validate_eq_error_iff {field : Field} {failure : Failure} :
    field.validate = .error failure ↔ field.problems = failure.problems :=
  Failure.settle_eq_error_iff

theorem exists_argumentDefinitions {field : String} {arguments : List Argument}
    (defined : ∀ argument ∈ arguments, ∃ definition, argument.toDefinition field = .ok definition) :
    ∃ definitions, argumentDefinitions field arguments = .ok definitions := by
  induction arguments with
  | nil => exact ⟨[], rfl⟩
  | cons first others inductionHypothesis =>
    obtain ⟨definition, firstDefined⟩ := defined first List.mem_cons_self
    obtain ⟨definitions, othersDefined⟩ :=
      inductionHypothesis fun argument member => defined argument (List.mem_cons_of_mem _ member)
    exact ⟨definition :: definitions, by rw [argumentDefinitions, firstDefined, othersDefined]; rfl⟩

/-- A field that passes its checks has a definition. -/
theorem exists_toDefinition {field : Field} (valid : field.validate = .ok ()) :
    ∃ definition, field.toDefinition = .ok definition := by
  have noProblems := validate_eq_ok_iff.mp valid
  rw [problems, List.append_eq_nil_iff, List.append_eq_nil_iff] at noProblems
  obtain ⟨⟨typed, argumentsDefined⟩, -⟩ := noProblems
  obtain ⟨type, resolved⟩ := typeProblems_eq_nil_iff.mp typed
  obtain ⟨arguments, allDefined⟩ : ∃ definitions,
      argumentDefinitions field.label field.arguments.members = .ok definitions :=
    exists_argumentDefinitions fun argument member =>
      problemOf_eq_nil_iff.mp (List.flatMap_eq_nil_iff.mp argumentsDefined argument member)
  refine ⟨⟨field.description, field.name, arguments, type⟩, ?_⟩
  rw [toDefinition, valid, allDefined, resolved]
  rfl

/-- The definition of a field fails as its validation does, and in no other way. -/
theorem toDefinition_eq_error_iff {field : Field} {failure : Failure} :
    field.toDefinition = .error failure ↔ field.validate = .error failure := by
  cases valid : field.validate with
  | ok =>
    obtain ⟨definition, defined⟩ := exists_toDefinition valid
    simp [defined]
  | error invalid =>
    have refused : field.toDefinition = .error invalid := by
      rw [toDefinition, valid]
      rfl
    rw [refused, Except.error.injEq, Except.error.injEq]

/-! ### Validation and binding -/

/-- A target that a field names and that is not usable is found by its validation as well. -/
theorem mem_problems_of_check_eq_error {field : Field} {target : Target} {problem : Problem}
    (named : field.resolver.or field.defaultResolver = some target)
    (refused : Reference.check field.wiring.known target = .error problem) :
    problem ∈ field.problems := by
  have isTarget : target ∈ field.targets := by
    rw [targets, List.mem_append, Option.mem_toList, Option.mem_toList]
    exact (Option.or_eq_some_iff.mp named).imp_right And.right
  rw [problems, List.mem_append]
  exact Or.inr (List.mem_flatMap.mpr ⟨target, isTarget, mem_problemOf_iff.mpr refused⟩)

/-- A field is not bound because its validation fails too, or because no tier knows a resolver. -/
theorem mem_problems_or_noResolverFound {field : Field} {owner : String} {problem : Problem}
    (unbound : field.binding owner = .error problem) :
    problem ∈ field.problems ∨ problem = .noResolverFound owner field.label := by
  rw [binding_eq_error_iff, reference_eq_error_iff] at unbound
  rcases unbound with ⟨target, named, refused⟩ | ⟨-, -, missed⟩
  · exact Or.inl (mem_problems_of_check_eq_error named refused)
  · rw [Wiring.find_eq_error_iff, Wiring.findWithTier_eq_error_iff] at missed
    exact Or.inr missed.1

/-- A field whose targets are usable is not bound only if it names none and no tier answers. -/
theorem binding_eq_error_iff_of_valid {field : Field} (valid : field.validate = .ok ())
    {owner : String} {problem : Problem} :
    field.binding owner = .error problem ↔
      field.resolver = none ∧ field.defaultResolver = none ∧
        (∀ tier, field.wiring.atTier owner field.label none tier = none) ∧
        problem = .noResolverFound owner field.label := by
  have noProblems := validate_eq_ok_iff.mp valid
  rw [binding_eq_error_iff, reference_eq_error_iff, Wiring.find_eq_error_iff,
    Wiring.findWithTier_eq_error_iff]
  constructor
  · rintro (⟨target, named, refused⟩ | ⟨noResolver, -, isMissing, missed⟩)
    · have found := mem_problems_of_check_eq_error named refused
      rw [noProblems] at found
      cases found
    · have noDefault : field.defaultResolver = none :=
        Option.map_eq_none_iff.mp (missed .fieldDefault)
      rw [ownDefault, noDefault] at missed
      exact ⟨noResolver, noDefault, missed, isMissing⟩
  · rintro ⟨noResolver, noDefault, missed, isMissing⟩
    have usable : field.HasUsableDefault := by
      rw [HasUsableDefault, noDefault]
      exact fun target given => nomatch given
    refine Or.inr ⟨noResolver, usable, isMissing, ?_⟩
    rw [ownDefault, noDefault]
    exact missed

/-! ### What validation decides -/

/-- A field has a definition exactly if it passes its validation, and fails with the failure of its
validation otherwise: the conversions behind it meet no problem of their own. The definition has
the name and the description of the field, the definitions of its arguments in their order, and
its type. A field that passes its validation has no binding exactly if it names no function itself
and no tier of its wiring answers, and this is what is reported then. -/
theorem defined_iff_valid_and_bound_of_valid (field : Field) :
    ((∃ definition, field.toDefinition = .ok definition) ↔ field.validate = .ok ()) ∧
    (∀ failure, field.toDefinition = .error failure ↔ field.validate = .error failure) ∧
    (∀ definition, field.toDefinition = .ok definition →
      definition.name = field.name ∧ definition.description = field.description ∧
      List.Forall₂ (fun argument definition => argument.toDefinition field.label = .ok definition)
        field.arguments.members definition.arguments ∧
      field.resolvedType = .ok definition.type) ∧
    (field.validate = .ok () → ∀ owner,
      ((∃ problem, field.binding owner = .error problem) ↔
        field.resolver = none ∧ field.defaultResolver = none ∧
          ∀ tier, field.wiring.atTier owner field.label none tier = none) ∧
      ∀ problem, field.binding owner = .error problem →
        problem = .noResolverFound owner field.label) := by
  refine ⟨⟨?_, exists_toDefinition⟩, fun failure => toDefinition_eq_error_iff, ?_, ?_⟩
  · rintro ⟨definition, defined⟩
    exact validate_eq_ok_iff.mpr (toDefinition_eq_ok_iff.mp defined).1
  · intro definition defined
    obtain ⟨-, sameName, sameDescription, hasType, allDefined⟩ := toDefinition_eq_ok_iff.mp defined
    exact ⟨sameName, sameDescription, allDefined, hasType⟩
  · intro valid owner
    simp only [binding_eq_error_iff_of_valid valid]
    refine ⟨⟨?_, ?_⟩, fun problem unbound => unbound.2.2.2⟩
    · rintro ⟨problem, noResolver, noDefault, missed, -⟩
      exact ⟨noResolver, noDefault, missed⟩
    · rintro ⟨noResolver, noDefault, missed⟩
      exact ⟨_, noResolver, noDefault, missed, rfl⟩

end Field

end SchemaAssembly
