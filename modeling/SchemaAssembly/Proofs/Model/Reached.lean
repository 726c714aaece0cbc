/-
This file proves that types with a model behind them come about through operations on fields and
object types alone: what the model adds to a field is added by steps that anyone could take. What
holds of all fields and object types therefore holds of theirs, of the fields of their operations,
and of the root types to which these are added. The last section puts together what holds of fields
and types at all times, and what of the definitions that are built from them.
-/

import SchemaAssembly.Model.ModelType
import SchemaAssembly.Proofs.Field.Lookup
import SchemaAssembly.Proofs.Grammar.Signature
import SchemaAssembly.Proofs.ObjectType.Building
import SchemaAssembly.Proofs.ObjectType.Lookup

namespace SchemaAssembly

namespace ModelType

/-! ### Operations -/

/-- The operations on a model type. -/
inductive Step
  | addField (definition : String) (config : FieldConfig)
  | addFields (definitions : List String)
  | addAllFields
  | removeField (name : String)
  | addOperation (identifier : String) (config : Json.Settings)
  | editObject (step : ObjectType.Step)

namespace Step

/-- The type after an operation. One that fails leaves what it has done until then. -/
def apply (type : ModelType) : Step → ModelType
  | .addField definition config =>
    match type.addField definition config with
    | .ok changed => changed
    | .error _ => type
  | .addFields definitions => (type.addFields definitions).1
  | .addAllFields => type.addAllFields.1
  | .removeField name => type.removeField name
  | .addOperation identifier config =>
    match type.addOperation identifier config with
    | .ok changed => changed
    | .error _ => type
  | .editObject step => { type with objectType := step.apply type.objectType }

/-- Whether an operation uses only fields that are reached. -/
def IsFrom (inserted : Argument → Prop) : Step → Prop
  | .addField _ config => ∀ other ∈ config.template?, other.Reached inserted
  | .editObject step => step.IsFrom inserted
  | .addFields _ | .addAllFields | .removeField _ | .addOperation _ _ => True

end Step

variable {inserted : Argument → Prop}

/-! ### Fields -/

theorem reached_withModelType (model : Model) {field : Field} (reached : field.Reached inserted) :
    (withModelType model field).Reached inserted := by
  unfold withModelType
  split
  · split
    · next type _ => exact reached.applyAlone (.setType (.written type)) rfl rfl
    · exact reached
  · exact reached

theorem reached_withModelResolver (model : Model) (config : FieldConfig) {field : Field}
    (reached : field.Reached inserted) :
    (withModelResolver model config field).Reached inserted := by
  unfold withModelResolver
  split
  · exact reached.applyAlone (.setDefaultResolver (some model.defaultResolver)) rfl rfl
  · exact reached

/-- A model type makes a field by operations: it is made, and given a type and a default
resolver. -/
theorem reached_of_makeField {type : ModelType} {definition : String} {config : FieldConfig}
    {field : Field} (templates : ∀ other ∈ config.template?, other.Reached inserted)
    (made : type.makeField definition config = .ok field) : field.Reached inserted := by
  unfold makeField at made
  split at made
  · next bare madeBare =>
    cases made
    have reached : bare.Reached inserted := .make madeBare templates
    exact reached_withModelResolver _ _ (reached_withModelType _ reached)
  · cases made

theorem reached_of_makeOperation {operation : Operation} {type : String} {config : Json.Settings}
    {wiring : Wiring} {field : Field} (made : operation.makeField type config wiring = .ok field) :
    field.Reached inserted := by
  unfold Operation.makeField at made
  split at made
  · cases made
  · split at made
    · cases made
    · exact Field.reached_of_make made rfl

/-! ### Types that are reached -/

/-- The model types that come about through operations, where only the `inserted` arguments are put
into a field as they are. -/
inductive Reached (inserted : Argument → Prop) : ModelType → Prop
  | ofModel {model : Model} {wiring : Wiring} {type : ModelType}
      (made : ModelType.ofModel model wiring = .ok type) : Reached inserted type
  | step {type : ModelType} (before : Reached inserted type) (step : Step)
      (isFrom : step.IsFrom inserted) : Reached inserted (step.apply type)

/-- A type whose object type and whose fields of operations are reached. -/
structure HoldsReached (inserted : Argument → Prop) (type : ModelType) : Prop where
  objectType : type.objectType.Reached inserted
  operations : ∀ operation ∈ type.operations.members, operation.2.2.Reached inserted

/-- An operation on the object type does not touch the fields of operations. -/
theorem HoldsReached.editObject {type : ModelType} (holds : type.HoldsReached inserted)
    (step : ObjectType.Step) (isFrom : step.IsFrom inserted) :
    ({ type with objectType := step.apply type.objectType } : ModelType).HoldsReached inserted :=
  ⟨holds.objectType.step step isFrom, holds.operations⟩

theorem HoldsReached.addField {type changed : ModelType} {definition : String}
    {config : FieldConfig} (holds : type.HoldsReached inserted)
    (templates : ∀ other ∈ config.template?, other.Reached inserted)
    (added : type.addField definition config = .ok changed) : changed.HoldsReached inserted := by
  unfold ModelType.addField at added
  split at added
  · next field made =>
    cases added
    exact holds.editObject (.addField field) (reached_of_makeField templates made)
  · cases added

theorem HoldsReached.addFields {type : ModelType} (holds : type.HoldsReached inserted)
    (definitions : List String) : (type.addFields definitions).1.HoldsReached inserted := by
  let invariant : ModelType × List Problem → Prop := fun outcome =>
    outcome.1.HoldsReached inserted
  have noTemplate : ∀ other ∈ FieldConfig.empty.template?, other.Reached inserted :=
    Field.forall_mem_of_eq_none rfl _
  refine List.foldlRecOn (motive := invariant) definitions _ holds fun before soFar _ _ => ?_
  show HoldsReached inserted (Prod.fst _)
  split
  · next added => exact HoldsReached.addField soFar noTemplate added
  · exact soFar

theorem HoldsReached.addTyped {type : ModelType} (holds : type.HoldsReached inserted)
    (fields : List (String × String)) : (type.addTyped fields).1.HoldsReached inserted := by
  induction fields generalizing type with
  | nil => exact holds
  | cons first others inductionHypothesis =>
    have noTemplate : ∀ other ∈ (FieldConfig.type (.written first.2)).template?,
        other.Reached inserted := Field.forall_mem_of_eq_none rfl _
    unfold ModelType.addTyped
    split
    · next added => exact inductionHypothesis (holds.addField noTemplate added)
    · exact holds

/-- The field of an operation that is added is made without a template. -/
theorem HoldsReached.addOperation {type changed : ModelType} {identifier : String}
    {config : Json.Settings} (holds : type.HoldsReached inserted)
    (added : type.addOperation identifier config = .ok changed) :
    changed.HoldsReached inserted := by
  unfold ModelType.addOperation at added
  split at added
  · cases added
  · split at added
    · cases added
    · next field made =>
      cases added
      refine ⟨holds.objectType, fun operation present => ?_⟩
      rcases Keyed.mem_of_mem_insert present with rfl | kept
      · exact reached_of_makeOperation made
      · exact holds.operations operation kept

theorem HoldsReached.apply {type : ModelType} (holds : type.HoldsReached inserted) {step : Step}
    (isFrom : step.IsFrom inserted) : (step.apply type).HoldsReached inserted := by
  cases step with
  | addField definition config =>
    unfold Step.apply
    dsimp only
    split
    · next added => exact holds.addField isFrom added
    · exact holds
  | addFields definitions => exact holds.addFields definitions
  | addAllFields => exact holds.addTyped _
  | removeField name => exact holds.editObject (.removeField name) trivial
  | addOperation identifier config =>
    unfold Step.apply
    dsimp only
    split
    · next added => exact holds.addOperation added
    · exact holds
  | editObject step => exact holds.editObject step isFrom

/-- All fields of a type that is reached are reached, those of its operations included. -/
theorem Reached.holdsReached {type : ModelType} (reached : Reached inserted type) :
    type.HoldsReached inserted := by
  induction reached with
  | @ofModel model wiring type made =>
    have bare : HoldsReached inserted ⟨model, .empty model.typeName wiring, ∅⟩ :=
      ⟨.empty model.typeName wiring, List.forall_mem_nil _⟩
    have filled := bare.addTyped model.defaultFields.members
    unfold ModelType.ofModel at made
    dsimp only at made
    split at made
    · next isFilled =>
      cases made
      rw [isFilled] at filled
      exact filled
    · cases made
  | step before step isFrom inductionHypothesis => exact inductionHypothesis.apply isFrom

/-- The field of an operation is reached. -/
theorem Reached.operation {type : ModelType} (reached : Reached inserted type)
    {identifier : String} {field : Field} (found : type.operation? identifier = some field) :
    field.Reached inserted := by
  rw [operation?, Keyed.get?, Option.map_map, Option.map_eq_some_iff] at found
  obtain ⟨operation, isOperation, rfl⟩ := found
  exact reached.holdsReached.operations operation (List.mem_of_find?_eq_some isOperation)

/-- A root type to which the fields of operations are added is reached if it was. -/
theorem Reached.applyOperations {type : ModelType} (reached : Reached inserted type) (root : Root)
    {rootType : ObjectType} (rootReached : rootType.Reached inserted) :
    (type.applyOperations root rootType).Reached inserted := by
  refine List.foldlRecOn (motive := ObjectType.Reached inserted) _ _ rootReached
    fun before soFar field isOperation => soFar.step (.addField field) ?_
  obtain ⟨entry, isEntry, rfl⟩ := List.mem_map.mp isOperation
  obtain ⟨member, present, rfl⟩ := List.mem_map.mp (List.mem_filter.mp isEntry).1
  exact reached.holdsReached.operations member present

end ModelType

/-! ### What holds of all states, and of what is built -/

/-- Fields and types keep their invariants through every sequence of operations: a field has a valid
name and stands under it, arguments stand under their names as well, and only those that are put
into a field as they are may have names that are not valid. What is found under a key after an
operation is known from what was found before, and no operation takes something to another key than
its name; a field that is edited stays in its place. What is built from a type is well formed: it
has the names of the type, of its fields and of their arguments, all of them valid and distinct,
and all types in it are built over valid names. -/
theorem consistent_of_reached_and_wellFormed_of_build (inserted : Argument → Prop) :
    (∀ field : Field, field.Reached inserted → field.IsConsistent inserted) ∧
    (∀ type : ObjectType, type.Reached inserted →
      type.IsConsistent inserted ∧ type.HoldsReached inserted) ∧
    (∀ type : ModelType, type.Reached inserted →
      type.objectType.Reached inserted ∧
      (∀ identifier field, type.operation? identifier = some field → field.Reached inserted) ∧
      ∀ root rootType, ObjectType.Reached inserted rootType →
        (type.applyOperations root rootType).Reached inserted) ∧
    (∀ (field : Field) (step : Field.Step),
      (step.apply field).label = field.label ∧
      (step.apply field).arguments.find? = step.found field.label field.arguments.find? ∧
      ∀ before, Field.KeysAreNames before → Field.KeysAreNames (step.found field.label before)) ∧
    (∀ (type : ObjectType) (step : ObjectType.Step),
      (step.apply type).fields.find? = step.found type.wiring type.fields.find? ∧
      ∀ before, ObjectType.KeysAreNames before →
        ObjectType.KeysAreNames (step.found type.wiring before)) ∧
    (∀ (type : ObjectType) (name : String) (step : Field.Step),
      (type.editField name step).fields.keys = type.fields.keys) ∧
    ∀ (type : ObjectType) (built : BuiltObject), type.build = .ok built →
      built.definition.IsWellFormed ∧
      built.definition.name.text = type.name ∧
      built.definition.fieldNames = type.fields.keys ∧
      List.Forall₂ (fun field definition => definition.argumentNames = field.arguments.keys)
        type.fields.members built.definition.fields ∧
      ∀ field ∈ type.fields.members, ∀ argument ∈ field.arguments.members, argument.IsNamed := by
  refine ⟨fun field reached => reached.isConsistent,
    fun type reached => ⟨reached.isConsistent, reached.holdsReached⟩,
    fun type reached => ⟨reached.holdsReached.objectType, fun _ _ found => reached.operation found,
      fun root _ ofRoot => reached.applyOperations root ofRoot⟩,
    fun field step => ⟨step.label_apply field, step.find?_apply field,
      fun _ named => Field.Step.keysAreNames_found named step⟩,
    fun type step => ⟨step.find?_apply type,
      fun _ named => ObjectType.Step.keysAreNames_found named type.wiring step⟩,
    ObjectType.keys_editField, ?_⟩
  intro type built success
  refine ⟨ObjectType.isWellFormed_of_build success, (ObjectType.build_eq_ok_iff.mp success).1,
    ObjectType.fieldNames_of_build success, ?_,
    fun field isField argument present => ObjectType.isName_of_build success isField present⟩
  exact (ObjectType.fields_of_build success).imp fun field definition defined =>
    Field.argumentNames_of_toDefinition defined

/-- The field `posts` with a type. -/
def Field.posts : Field where
  name := ⟨"posts".toList, by decide⟩
  definition := "posts"
  arguments := ∅
  type? := some (.settled (.named ⟨"Post".toList, by decide⟩ false))
  description := none
  resolver := none
  defaultResolver := none
  context := ∅
  wiring := .start [Target.standard]

/-- What is done to the field: an argument is configured, one with an invalid name is refused, and
one is put into the field as it is. -/
def Field.stepsOfPosts : List Field.Step :=
  [.configureArgument "id" (.type (.settled (.named ⟨"ID".toList, by decide⟩ true))),
    .configureArgument "no name" (.type (.written "ID")), .putArgument (.bare "not a name")]

/-- A model type to which the field is added afterwards. -/
def ModelType.posts : ModelType where
  model := ⟨"Post", "Post", fun _ => false, fun _ => none, ∅, ∅, Target.standard, .empty⟩
  objectType := (ObjectType.empty "Post" (.start [Target.standard])).addField
    (Field.stepsOfPosts.foldl Field.Step.apply Field.posts)
  operations := ∅

/-- The invalid name comes from the argument that was put into the field, and the type is built once
the argument has been removed. -/
theorem consistent_of_reached_and_wellFormed_of_build_posts :
    ModelType.posts.objectType.IsConsistent (· = .bare "not a name") ∧
      (ModelType.posts.objectType.fields.find? "posts").map (fun field => field.arguments.keys) =
        some ["id", "not a name"] ∧
      ∃ built,
        (ModelType.posts.objectType.editField "posts" (.removeArgument "not a name")).build =
          .ok built ∧
        built.definition.IsWellFormed ∧ built.definition.fieldNames = ["posts"] := by
  obtain ⟨-, ofObject, ofModel, -, -, -, ofBuild⟩ :=
    consistent_of_reached_and_wellFormed_of_build (· = .bare "not a name")
  have made : Field.make "posts" (.type (.settled (.named ⟨"Post".toList, by decide⟩ false)))
      (.start [Target.standard]) = .ok Field.posts :=
    Field.make_eq_ok_iff.mpr ⟨_, _, Field.nameAndArguments_text ⟨"posts".toList, by decide⟩, rfl⟩
  have atFirst : Field.posts.Reached (· = .bare "not a name") := Field.reached_of_make made rfl
  have fieldReached : (Field.stepsOfPosts.foldl Field.Step.apply Field.posts).Reached
      (· = .bare "not a name") := by
    have configured := atFirst.applyAlone
      (.configureArgument "id" (.type (.settled (.named ⟨"ID".toList, by decide⟩ true))))
      rfl rfl
    have refused := configured.applyAlone (.configureArgument "no name" (.type (.written "ID")))
      rfl rfl
    exact refused.putArgument rfl
  have started : ModelType.ofModel ModelType.posts.model (.start [Target.standard]) =
      .ok ⟨ModelType.posts.model, .empty "Post" (.start [Target.standard]), ∅⟩ := rfl
  have typeReached : ModelType.posts.Reached (· = .bare "not a name") :=
    (ModelType.Reached.ofModel started).step (.editObject (.addField _)) fieldReached
  have objectReached := (ofModel ModelType.posts typeReached).1
  have success : ∃ built, (ModelType.posts.objectType.editField "posts"
      (.removeArgument "not a name")).build = .ok built := ⟨_, rfl⟩
  obtain ⟨built, success⟩ := success
  obtain ⟨wellFormed, -, sameNames, -⟩ := ofBuild _ built success
  exact ⟨(ofObject _ objectReached).1, rfl, built, success, wellFormed, sameNames⟩

end SchemaAssembly
