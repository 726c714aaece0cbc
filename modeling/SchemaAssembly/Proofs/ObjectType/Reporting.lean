/-
This file proves what an object type reports when it cannot be built, and when it can. A report
goes through the type and its fields in order, and every field adds the problems of its validation
or, if it passes that, the problem that stands in place of its binding. So a type is built exactly
if no check fails, and one that is not built names something for every field that is in the way.

Since a field that fails its validation is not asked for its binding, its report can be short of
one problem: that no tier knows a resolver for it. Every other problem is reported.
-/

import SchemaAssembly.Proofs.Field.Validation
import SchemaAssembly.Proofs.ObjectType.Building

namespace SchemaAssembly

namespace Field

/-- What the checks of a field of a type report: the problems of its validation, and the problem
that stands in place of its binding. -/
def Reports (field : Field) (owner : String) (problem : Problem) : Prop :=
  (∃ failure, field.validate = .error failure ∧ problem ∈ failure.problems) ∨
    field.binding owner = .error problem

/-- Whether a field of a type passes its checks. -/
structure IsEncodable (field : Field) (owner : String) : Prop where
  valid : field.validate = .ok ()
  bound : ∃ binding, field.binding owner = .ok binding

theorem mem_problems_iff {field : Field} {problem : Problem} :
    problem ∈ field.problems ↔
      ∃ failure, field.validate = .error failure ∧ problem ∈ failure.problems := by
  simp only [validate_eq_error_iff]
  constructor
  · intro found
    cases all : field.problems with
    | nil =>
      rw [all] at found
      cases found
    | cons first others =>
      rw [all] at found
      exact ⟨⟨first, others⟩, rfl, found⟩
  · rintro ⟨failure, same, reported⟩
    exact same ▸ reported

end Field

namespace ObjectType

/-! ### The report of a field -/

/-- What a field contributes to the report of its type. -/
def contribution (owner : String) (field : Field) : List Problem :=
  match buildField owner field with
  | .ok _ => []
  | .error failure => failure.problems

theorem contribution_of_valid {field : Field} (valid : field.validate = .ok ()) (owner : String) :
    contribution owner field = Field.problemOf (field.binding owner) := by
  obtain ⟨definition, defined⟩ := Field.exists_toDefinition valid
  rw [contribution, buildField, defined]
  cases field.binding owner <;> rfl

theorem contribution_of_invalid {field : Field} {failure : Failure}
    (invalid : field.validate = .error failure) (owner : String) :
    contribution owner field = failure.problems := by
  rw [contribution, buildField, Field.toDefinition_eq_error_iff.mpr invalid]
  rfl

theorem reports_of_mem_contribution {owner : String} {field : Field} {problem : Problem}
    (contributed : problem ∈ contribution owner field) : field.Reports owner problem := by
  cases valid : field.validate with
  | ok =>
    rw [contribution_of_valid valid] at contributed
    exact Or.inr (Field.mem_problemOf_iff.mp contributed)
  | error failure =>
    rw [contribution_of_invalid valid] at contributed
    exact Or.inl ⟨failure, valid, contributed⟩

/-- A field contributes nothing if it passes its checks. -/
theorem contribution_eq_nil_iff {owner : String} {field : Field} :
    contribution owner field = [] ↔ field.IsEncodable owner := by
  cases valid : field.validate with
  | ok =>
    rw [contribution_of_valid valid, Field.problemOf_eq_nil_iff]
    exact ⟨fun bound => ⟨valid, bound⟩, fun encodable => encodable.bound⟩
  | error failure =>
    rw [contribution_of_invalid valid]
    refine iff_of_false (List.cons_ne_nil _ _) fun encodable => ?_
    cases valid.symm.trans encodable.valid

/-- Of what the checks of a field report, only one thing may be missing from its contribution: that
no tier knows a resolver for it, if its validation fails. -/
theorem mem_contribution_iff_of_reports {owner : String} {field : Field} {problem : Problem}
    (reported : field.Reports owner problem) :
    problem ∈ contribution owner field ↔
      field.validate = .ok () ∨ problem ≠ .noResolverFound owner field.label := by
  cases valid : field.validate with
  | ok =>
    rw [contribution_of_valid valid, Field.mem_problemOf_iff, or_iff_left_of_imp fun _ => rfl]
    rcases reported with ⟨failure, invalid, -⟩ | unbound
    · rw [valid] at invalid
      cases invalid
    · exact iff_of_true unbound rfl
  | error failure =>
    have sameProblems := Field.validate_eq_error_iff.mp valid
    rw [contribution_of_invalid valid, ← sameProblems, or_iff_right (fun same => nomatch same)]
    constructor
    · exact fun found => Field.ne_noResolverFound_of_mem_problems found owner field.label
    · intro other
      rcases reported with ofValidation | unbound
      · exact Field.mem_problems_iff.mpr ofValidation
      · exact (Field.mem_problems_or_noResolverFound unbound).resolve_right other

/-! ### The report of a type -/

/-- The problem of the name of a type, if there is one. -/
def nameProblems (type : ObjectType) : List Problem :=
  if isName type.name then [] else [type.invalidName]

/-- Everything that stands in the way of building a type. -/
def buildProblems (type : ObjectType) : List Problem :=
  type.nameProblems ++ (type.lackOfFields ++ type.fields.members.flatMap (contribution type.name))

/-- The problems that are met on the way through the fields, in their order. -/
theorem snd_buildFields (owner : String) (fields : List Field) :
    (buildFields owner fields).2 = fields.flatMap (contribution owner) := by
  induction fields with
  | nil => rfl
  | cons field others inductionHypothesis =>
    rw [buildFields, List.flatMap_cons, contribution, ← inductionHypothesis]
    cases buildField owner field <;> rfl

/-- A type that is not built fails with everything that stands in the way. -/
theorem build_eq_error_iff {type : ObjectType} {failure : Failure} :
    type.build = .error failure ↔ type.buildProblems = failure.problems := by
  rw [buildProblems, ← snd_buildFields, nameProblems, isName, ← Name.isSome_ofText?]
  obtain ⟨first, others⟩ := failure
  unfold build
  obtain ⟨parts, fieldProblems⟩ := buildFields type.name type.fields.members
  cases Name.ofText? type.name with
  | none => simp [Failure.problems]
  | some name => simp [Failure.settle_eq_error_iff]

/-- A type is built if nothing stands in the way. -/
theorem exists_build_iff {type : ObjectType} :
    (∃ built, type.build = .ok built) ↔ type.buildProblems = [] := by
  cases outcome : type.build with
  | ok built =>
    refine iff_of_true ⟨built, rfl⟩ ?_
    cases problems : type.buildProblems with
    | nil => rfl
    | cons first others =>
      have failed : type.build = .error ⟨first, others⟩ := build_eq_error_iff.mpr problems
      rw [outcome] at failed
      cases failed
  | error failure =>
    rw [build_eq_error_iff.mp outcome]
    exact iff_of_false (fun success => nomatch success) (List.cons_ne_nil _ _)

theorem mem_buildProblems_iff {type : ObjectType} {problem : Problem} :
    problem ∈ type.buildProblems ↔
      (isName type.name = false ∧ problem = type.invalidName) ∨
      (type.fields.isEmpty = true ∧
        problem = .invalidConfigValue type.place "fields"
          "an object type needs at least one field") ∨
      ∃ field ∈ type.fields.members, problem ∈ contribution type.name field := by
  have ofName : problem ∈ type.nameProblems ↔
      isName type.name = false ∧ problem = type.invalidName := by
    cases named : isName type.name <;> simp [nameProblems, named]
  have ofFields : problem ∈ type.lackOfFields ↔
      type.fields.isEmpty = true ∧
        problem = .invalidConfigValue type.place "fields"
          "an object type needs at least one field" := by
    cases empty : type.fields.isEmpty <;> simp [lackOfFields, empty]
  rw [buildProblems, List.mem_append, List.mem_append, List.mem_flatMap, ofName, ofFields]

theorem buildProblems_eq_nil_iff {type : ObjectType} :
    type.buildProblems = [] ↔
      isName type.name = true ∧ type.fields.isEmpty = false ∧
        ∀ field ∈ type.fields.members, field.IsEncodable type.name := by
  have ofName : type.nameProblems = [] ↔ isName type.name = true := by
    cases named : isName type.name <;> simp [nameProblems, named]
  rw [buildProblems, List.append_eq_nil_iff, List.append_eq_nil_iff, List.flatMap_eq_nil_iff,
    ofName, lackOfFields_eq_nil_iff]
  simp only [contribution_eq_nil_iff]

/-! ### What is built, and what is reported instead -/

/-- A type is built exactly if its name is valid, it has a field, and every field passes its
checks. What is built then has, field by field, the definition of the field and its binding under
its name, and nothing else. A type that is not built reports only what its checks find, and
something for every field that does not pass them. -/
theorem built_iff_encodable_and_reported (type : ObjectType) :
    ((∃ built, type.build = .ok built) ↔
      isName type.name = true ∧ type.fields.members ≠ [] ∧
        ∀ field ∈ type.fields.members,
          field.validate = .ok () ∧ ∃ binding, field.binding type.name = .ok binding) ∧
    (∀ built, type.build = .ok built →
      built.definition.name.text = type.name ∧
      List.Forall₂ (fun field definition => field.toDefinition = .ok definition)
        type.fields.members built.definition.fields ∧
      List.Forall₂
        (fun field entry => entry.1 = field.label ∧ field.binding type.name = .ok entry.2)
        type.fields.members built.bindings.members ∧
      built.bindings.keys = built.definition.fieldNames ∧ built.definition.fieldNames.Nodup) ∧
    ∀ failure, type.build = .error failure →
      (∀ problem ∈ failure.problems,
        (isName type.name = false ∧ problem = type.invalidName) ∨
        (type.fields.members = [] ∧
          problem = .invalidConfigValue type.place "fields"
            "an object type needs at least one field") ∨
        ∃ field ∈ type.fields.members, field.Reports type.name problem) ∧
      ∀ field ∈ type.fields.members,
        ¬(field.validate = .ok () ∧ ∃ binding, field.binding type.name = .ok binding) →
          ∃ problem ∈ failure.problems, field.Reports type.name problem := by
  have encodable : ∀ field : Field, field.IsEncodable type.name ↔
      field.validate = .ok () ∧ ∃ binding, field.binding type.name = .ok binding :=
    fun field => ⟨fun passes => ⟨passes.valid, passes.bound⟩, fun both => ⟨both.1, both.2⟩⟩
  have isEmpty : type.fields.isEmpty = true ↔ type.fields.members = [] := List.isEmpty_iff
  refine ⟨?_, fun built success => ?_, fun failure failed => ⟨fun problem reported => ?_, ?_⟩⟩
  · simp only [exists_build_iff, buildProblems_eq_nil_iff, encodable, ← Bool.not_eq_true, isEmpty,
      ne_eq]
  · refine ⟨(build_eq_ok_iff.mp success).1, fields_of_build success, bindings_of_build success,
      keys_bindings_of_build success, ?_⟩
    rw [fieldNames_of_build success]
    exact type.fields.distinct
  · rw [← build_eq_error_iff.mp failed, mem_buildProblems_iff, isEmpty] at reported
    refine reported.imp_right (Or.imp_right ?_)
    rintro ⟨field, isField, contributed⟩
    exact ⟨field, isField, reports_of_mem_contribution contributed⟩
  · intro field isField fails
    rw [← encodable, ← contribution_eq_nil_iff] at fails
    obtain ⟨problem, contributed⟩ := List.exists_mem_of_ne_nil _ fails
    refine ⟨problem, ?_, reports_of_mem_contribution contributed⟩
    rw [← build_eq_error_iff.mp failed, mem_buildProblems_iff]
    exact Or.inr (Or.inr ⟨field, isField, contributed⟩)

/-- The type `Post` with the given fields. -/
def post (fields : List Field) : ObjectType :=
  fields.foldl addField (.empty "Post" (.start []))

/-- A field `body` that the given functions may resolve. -/
def body (known : KnownTargets) : Field :=
  { Field.plain ⟨"body".toList, rfl⟩ (.start known) with
    type? := some (.settled (.named ⟨"String".toList, rfl⟩ false)) }

/-- A field `author` that has no type, with a resolver that no function is known for. -/
def author : Field :=
  { Field.plain ⟨"author".toList, rfl⟩ (.start []) with
    resolver := some ⟨"Nope", "resolve"⟩ }

/-- A type is built if the standard function resolves its field. If no function is known, one field
of the type fails its validation and the other is not bound, and both are reported. -/
theorem built_iff_encodable_and_reported_post :
    (∃ built, (post [body [.standard]]).build = .ok built ∧ built.definition.fieldNames = ["body"] ∧
      built.bindings.keys = ["body"]) ∧
    ∃ failure, (post [author, body []]).build = .error failure ∧
      ∀ field ∈ [author, body []], ∃ problem ∈ failure.problems, field.Reports "Post" problem := by
  obtain ⟨builds, isAligned, -⟩ := built_iff_encodable_and_reported (post [body [.standard]])
  obtain ⟨-, -, reports⟩ := built_iff_encodable_and_reported (post [author, body []])
  constructor
  · have passes : ∀ field ∈ [body [.standard]],
        field.validate = .ok () ∧ ∃ binding, field.binding "Post" = .ok binding := by
      intro field member
      rw [List.mem_singleton.mp member]
      exact ⟨rfl, _, rfl⟩
    obtain ⟨built, success⟩ := builds.mpr ⟨rfl, List.cons_ne_nil _ _, passes⟩
    obtain ⟨-, defined, -, sameNames, -⟩ := isAligned built success
    have fieldNames : built.definition.fieldNames = ["body"] := fieldNames_of_build success
    exact ⟨built, success, fieldNames, sameNames.trans fieldNames⟩
  · refine ⟨⟨.missingType (placeOfField "author") none,
      [.unresolvableCallable "Nope::resolve" "class \"Nope\" does not exist",
        .noResolverFound "Post" "body"]⟩, rfl, fun field member => ?_⟩
    refine (reports _ rfl).2 field member ?_
    rintro ⟨valid, binding, bound⟩
    rw [List.mem_cons, List.mem_singleton] at member
    rcases member with rfl | rfl
    · cases valid
    · cases bound

/-! ### Reports that are complete -/

/-- Only the field itself contributes that no tier knows a resolver for it. -/
theorem label_of_noResolverFound_mem_contribution {owner label : String} {field : Field}
    (contributed : .noResolverFound owner label ∈ contribution owner field) :
    field.label = label := by
  rcases reports_of_mem_contribution contributed with ofValidation | unbound
  · have found := Field.mem_problems_iff.mpr ofValidation
    exact absurd rfl (Field.ne_noResolverFound_of_mem_problems found owner label)
  · rcases Field.mem_problems_or_noResolverFound unbound with found | same
    · exact absurd rfl (Field.ne_noResolverFound_of_mem_problems found owner label)
    · exact (Problem.noResolverFound.inj same).2.symm

/-- The exception for the contribution of a field is one for the whole report: no other field makes
up for what is missing. -/
theorem mem_buildProblems_iff_of_reports {type : ObjectType} {field : Field}
    (isField : field ∈ type.fields.members) {problem : Problem}
    (reported : field.Reports type.name problem) :
    problem ∈ type.buildProblems ↔
      field.validate = .ok () ∨ problem ≠ .noResolverFound type.name field.label := by
  rw [← mem_contribution_iff_of_reports reported, mem_buildProblems_iff]
  constructor
  · rintro (⟨-, ofName⟩ | ⟨-, ofFields⟩ | ⟨other, isOther, contributed⟩)
    · rw [mem_contribution_iff_of_reports reported, ofName]
      exact Or.inr fun same => nomatch same
    · rw [mem_contribution_iff_of_reports reported, ofFields]
      exact Or.inr fun same => nomatch same
    · by_cases exception : problem = .noResolverFound type.name field.label
      · rw [exception] at contributed
        have sameLabel := label_of_noResolverFound_mem_contribution contributed
        have sameField := Keyed.eq_of_key_eq isOther isField sameLabel
        subst sameField
        exact exception ▸ contributed
      · exact (mem_contribution_iff_of_reports reported).mpr (Or.inr exception)
  · exact fun contributed => Or.inr (Or.inr ⟨field, isField, contributed⟩)

/-- Whether a failure holds every problem that the checks of the fields of a type report. -/
def ReportsAll (type : ObjectType) (failure : Failure) : Prop :=
  ∀ field ∈ type.fields.members, ∀ problem, field.Reports type.name problem →
    problem ∈ failure.problems

/-- A type that is not built reports what is wrong with its name and with the number of its
fields, all problems of their validations, and those that stand in place of their bindings, with
one exception: that no tier knows a resolver for a field is not reported if the field does not pass
its validation. So its report is complete exactly if there is no such field. -/
theorem reportsAll_iff {type : ObjectType} {failure : Failure}
    (failed : type.build = .error failure) :
    (isName type.name = false → type.invalidName ∈ failure.problems) ∧
    (type.fields.members = [] →
      .invalidConfigValue type.place "fields" "an object type needs at least one field" ∈
        failure.problems) ∧
    (∀ field ∈ type.fields.members, ∀ invalid, field.validate = .error invalid →
      ∀ problem ∈ invalid.problems, problem ∈ failure.problems) ∧
    (∀ field ∈ type.fields.members, ∀ problem, field.binding type.name = .error problem →
      (problem ∈ failure.problems ↔
        field.validate = .ok () ∨ problem ≠ .noResolverFound type.name field.label)) ∧
    (type.ReportsAll failure ↔
      ∀ field ∈ type.fields.members, field.validate = .ok () ∨
        field.binding type.name ≠ .error (.noResolverFound type.name field.label)) := by
  rw [ReportsAll, ← build_eq_error_iff.mp failed]
  have ofValidation : ∀ field ∈ type.fields.members, ∀ invalid, field.validate = .error invalid →
      ∀ problem ∈ invalid.problems, problem ∈ type.buildProblems := by
    intro field isField invalid refused problem found
    have reported : field.Reports type.name problem := Or.inl ⟨invalid, refused, found⟩
    rw [mem_buildProblems_iff_of_reports isField reported]
    rw [← Field.validate_eq_error_iff.mp refused] at found
    exact Or.inr (Field.ne_noResolverFound_of_mem_problems found type.name field.label)
  refine ⟨fun unnamed => ?_, fun noFields => ?_, ofValidation, ?_, ?_⟩
  · exact mem_buildProblems_iff.mpr (Or.inl ⟨unnamed, rfl⟩)
  · exact mem_buildProblems_iff.mpr (Or.inr (Or.inl ⟨List.isEmpty_iff.mpr noFields, rfl⟩))
  · exact fun field isField problem unbound =>
      mem_buildProblems_iff_of_reports isField (Or.inr unbound)
  · constructor
    · intro complete field isField
      by_cases unresolved :
          field.binding type.name = .error (.noResolverFound type.name field.label)
      · have reported : field.Reports type.name _ := Or.inr unresolved
        have present := complete field isField _ reported
        rw [mem_buildProblems_iff_of_reports isField reported] at present
        exact Or.inl (present.resolve_right fun other => other rfl)
      · exact Or.inr unresolved
    · intro noException field isField problem reported
      rcases reported with ⟨invalid, refused, found⟩ | unbound
      · exact ofValidation field isField invalid refused problem found
      · rw [mem_buildProblems_iff_of_reports isField (Or.inr unbound)]
        refine (noException field isField).imp_right fun resolved same => ?_
        exact resolved (same ▸ unbound)

/-- A resolver that is not usable is reported by the validation, and a missing one where there is
nothing else to report, so the report is complete. -/
theorem reportsAll_post :
    ∃ failure, (post [author, body []]).build = .error failure ∧
      (post [author, body []]).ReportsAll failure := by
  have failed : (post [author, body []]).build =
      .error ⟨.missingType (placeOfField "author") none,
        [.unresolvableCallable "Nope::resolve" "class \"Nope\" does not exist",
          .noResolverFound "Post" "body"]⟩ := rfl
  refine ⟨_, failed, (reportsAll_iff failed).2.2.2.2.mpr fun field member => ?_⟩
  have isOneOfBoth : field ∈ [author, body []] := member
  rw [List.mem_cons, List.mem_singleton] at isOneOfBoth
  rcases isOneOfBoth with rfl | rfl
  · exact Or.inr fun unresolved => nomatch unresolved
  · exact Or.inl rfl

/-- A field without a type that nothing resolves is reported for its type alone. -/
theorem not_reportsAll_of_untyped_and_unresolved :
    (post [Field.plain ⟨"title".toList, by decide⟩ (.start [])]).build =
        .error (.single (.missingType "field \"title\"" none)) ∧
      ¬(post [Field.plain ⟨"title".toList, by decide⟩ (.start [])]).ReportsAll
        (.single (.missingType "field \"title\"" none)) := by
  refine ⟨rfl, fun complete => ?_⟩
  have reported : (Field.plain ⟨"title".toList, by decide⟩ (.start [])).Reports "Post"
      (.noResolverFound "Post" "title") := Or.inr rfl
  have present := complete _ List.mem_cons_self _ reported
  cases List.mem_singleton.mp present

end ObjectType

end SchemaAssembly
