/-
This file proves what all object types have in common that come about through the operations on
them, whether these succeed or fail halfway. Fields stand under their own names, and each of them
has come about through operations on fields; in particular a field that is edited in its place
stays under its key.
-/

import SchemaAssembly.ObjectType
import SchemaAssembly.Proofs.Field.Reached

namespace SchemaAssembly.ObjectType

/-! ### Operations -/

/-- Applies an operation to the field with the given name, in its place. -/
def editField (type : ObjectType) (name : String) (step : Field.Step) : ObjectType :=
  match type.fields.find? name with
  | some field => type.putField (step.apply field)
  | none => type

/-- The operations on an object type. -/
inductive Step
  | setDescription (description : Option String)
  | addField (field : Field)
  | createField (definition : String) (config : FieldConfig)
  | createFields (settings : Json.Settings)
  | removeField (name : String)
  | editField (name : String) (step : Field.Step)

namespace Step

/-- The type after an operation. One that fails leaves what it has done until then. -/
def apply (type : ObjectType) : Step → ObjectType
  | .setDescription description => { type with description := description }
  | .addField field => type.addField field
  | .createField definition config =>
    match type.createField definition config with
    | .ok changed => changed
    | .error _ => type
  | .createFields settings => (type.createFields settings).1
  | .removeField name => type.removeField name
  | .editField name step => type.editField name step

/-- Whether an operation uses only fields that are reached. -/
def IsFrom (inserted : Argument → Prop) : Step → Prop
  | .addField field => field.Reached inserted
  | .createField _ config => ∀ other ∈ config.template?, other.Reached inserted
  | .editField _ step => step.IsFrom inserted
  | .setDescription _ | .createFields _ | .removeField _ => True

end Step

/-! ### Edits -/

theorem editField_of_find?_eq_some {type : ObjectType} {name : String} {field : Field}
    (found : type.fields.find? name = some field) (step : Field.Step) :
    type.editField name step = type.putField (step.apply field) := by
  rw [editField, found]

theorem editField_of_find?_eq_none {type : ObjectType} {name : String}
    (absent : type.fields.find? name = none) (step : Field.Step) :
    type.editField name step = type := by
  rw [editField, absent]

/-- An edited field stays under its key, in its place among the others. -/
theorem keys_editField (type : ObjectType) (name : String) (step : Field.Step) :
    (type.editField name step).fields.keys = type.fields.keys := by
  cases found : type.fields.find? name with
  | none => rw [editField_of_find?_eq_none found]
  | some field =>
    rw [editField_of_find?_eq_some found]
    refine Keyed.keys_insert_of_mem type.fields (step.apply field) ?_
    rw [step.label_apply]
    exact List.mem_map_of_mem (List.mem_of_find?_eq_some found)

/-- An edit changes what is found under the name, and nothing else. -/
theorem find?_editField (type : ObjectType) (name : String) (step : Field.Step) (key : String) :
    (type.editField name step).fields.find? key =
      if name = key then (type.fields.find? key).map step.apply else type.fields.find? key := by
  cases found : type.fields.find? name with
  | none =>
    rw [editField_of_find?_eq_none found]
    split
    · next same => rw [← same, found]; rfl
    · rfl
  | some field =>
    have sameLabel : (step.apply field).label = name :=
      (step.label_apply field).trans (Keyed.key_of_find?_eq_some found)
    rw [editField_of_find?_eq_some found]
    refine (Keyed.find?_insert type.fields (step.apply field) key).trans ?_
    rw [sameLabel]
    split
    · next same => rw [← same, found]; rfl
    · rfl

/-! ### Types that are reached -/

variable {inserted : Argument → Prop}

/-- The object types that come about through operations, where only the `inserted` arguments are
put into a field as they are. -/
inductive Reached (inserted : Argument → Prop) : ObjectType → Prop
  | empty (name : String) (wiring : Wiring) : Reached inserted (.empty name wiring)
  | step {type : ObjectType} (before : Reached inserted type) (step : Step)
      (isFrom : step.IsFrom inserted) : Reached inserted (step.apply type)

/-- Whether all fields of a type are reached. -/
def HoldsReached (inserted : Argument → Prop) (type : ObjectType) : Prop :=
  ∀ field ∈ type.fields.members, field.Reached inserted

theorem HoldsReached.putField {type : ObjectType} (holds : type.HoldsReached inserted)
    {field : Field} (reached : field.Reached inserted) :
    (type.putField field).HoldsReached inserted := by
  intro member present
  rcases Keyed.mem_of_mem_insert present with rfl | kept
  · exact reached
  · exact holds member kept

/-- A field that is added is put there, or merged into one that is reached. -/
theorem HoldsReached.addField {type : ObjectType} (holds : type.HoldsReached inserted)
    {field : Field} (reached : field.Reached inserted) :
    (type.addField field).HoldsReached inserted := by
  unfold ObjectType.addField
  split
  · next present found =>
    have ofPresent := holds present (List.mem_of_find?_eq_some found)
    exact holds.putField (ofPresent.merge reached)
  · exact holds.putField reached

theorem HoldsReached.createField {type changed : ObjectType} {definition : String}
    {config : FieldConfig} (holds : type.HoldsReached inserted)
    (templates : ∀ other ∈ config.template?, other.Reached inserted)
    (created : type.createField definition config = .ok changed) :
    changed.HoldsReached inserted := by
  unfold ObjectType.createField at created
  split at created
  · next field made =>
    cases created
    exact holds.addField (.make made templates)
  · cases created

/-- No value is a template. -/
theorem template?_of_ofJson? {value : Json} {config : FieldConfig}
    (isConfig : FieldConfig.ofJson? value = some config) : config.template? = none := by
  unfold FieldConfig.ofJson? at isConfig
  split at isConfig <;> cases isConfig <;> rfl

theorem HoldsReached.createFromEntry {type : ObjectType} (holds : type.HoldsReached inserted)
    (entry : String × Json) : (type.createFromEntry entry).1.HoldsReached inserted := by
  unfold ObjectType.createFromEntry
  split
  · exact holds
  · next config isConfig =>
    split
    · next changed created =>
      have noTemplate := template?_of_ofJson? isConfig
      exact holds.createField (Field.forall_mem_of_eq_none noTemplate _) created
    · exact holds

/-- All fields that entries create are reached, whichever entries fail. -/
theorem HoldsReached.createFields {type : ObjectType} (holds : type.HoldsReached inserted)
    (settings : Json.Settings) : (type.createFields settings).1.HoldsReached inserted := by
  let invariant : ObjectType × List Problem → Prop := fun outcome =>
    outcome.1.HoldsReached inserted
  exact List.foldlRecOn (motive := invariant) settings.members _ holds
    fun _ soFar entry _ => soFar.createFromEntry entry

/-- An operation keeps all fields reached. -/
theorem HoldsReached.apply {type : ObjectType} (holds : type.HoldsReached inserted) {step : Step}
    (isFrom : step.IsFrom inserted) : (step.apply type).HoldsReached inserted := by
  cases step with
  | setDescription description => exact holds
  | addField field => exact holds.addField isFrom
  | createField definition config =>
    unfold Step.apply
    dsimp only
    split
    · next created => exact holds.createField isFrom created
    · exact holds
  | createFields settings => exact holds.createFields settings
  | removeField name => exact fun field present => holds field (List.mem_filter.mp present).1
  | editField name step =>
    show (type.editField name step).HoldsReached inserted
    cases found : type.fields.find? name with
    | none =>
      rw [editField_of_find?_eq_none found]
      exact holds
    | some field =>
      rw [editField_of_find?_eq_some found]
      exact holds.putField ((holds field (List.mem_of_find?_eq_some found)).apply isFrom)

theorem Reached.holdsReached {type : ObjectType} (reached : Reached inserted type) :
    type.HoldsReached inserted := by
  induction reached with
  | empty name wiring => exact List.forall_mem_nil _
  | step before step isFrom inductionHypothesis => exact inductionHypothesis.apply isFrom

/-- The invariant of an object type: its fields have distinct keys, stand under their own names
and satisfy their invariant. -/
structure IsConsistent (inserted : Argument → Prop) (type : ObjectType) : Prop where
  distinct : type.fields.keys.Nodup
  underName : ∀ key field, type.fields.find? key = some field ↔
    field ∈ type.fields.members ∧ field.label = key
  fieldsConsistent : ∀ field ∈ type.fields.members, field.IsConsistent inserted

/-- Every object type that is reached satisfies the invariant. -/
theorem Reached.isConsistent {type : ObjectType} (reached : Reached inserted type) :
    type.IsConsistent inserted where
  distinct := type.fields.distinct
  underName _ _ := Keyed.find?_eq_some_iff
  fieldsConsistent field isField := (reached.holdsReached field isField).isConsistent

end SchemaAssembly.ObjectType
