/-
This file says what the operations on an object type do to its fields, key by key. A field is
written under its name and merged into the one that is there, and an edited field stays under its
key. Described in this way, with the keys apart from the fields, no operation puts a field under
another key than its name.
-/

import SchemaAssembly.Proofs.ObjectType.Reached

namespace SchemaAssembly.ObjectType

/-! ### Operations on all keys -/

/-- What is found under each key after a field has been added. -/
def withField (field : Field) (before : String → Option Field) : String → Option Field :=
  fun key =>
    if field.label = key then some ((before key).elim field fun present => present.merge field)
    else before key

/-- What is found under each key after a field has been added, if it could be made. -/
def withMade (made : Except Failure Field) (before : String → Option Field) :
    String → Option Field :=
  match made with
  | .ok field => withField field before
  | .error _ => before

/-- What is found under each key after the field of one entry has been created. -/
def withEntry (wiring : Wiring) (before : String → Option Field) (entry : String × Json) :
    String → Option Field :=
  match FieldConfig.ofJson? entry.2 with
  | some config => withMade (Field.make entry.1 config wiring) before
  | none => before

/-- What is found under each key after an operation on a type with the given wiring, from what was
found before. -/
def Step.found (wiring : Wiring) (before : String → Option Field) :
    Step → String → Option Field
  | .setDescription _ => before
  | .addField field => withField field before
  | .createField definition config => withMade (Field.make definition config wiring) before
  | .createFields settings => settings.members.foldl (withEntry wiring) before
  | .removeField name => fun key => if name = key then none else before key
  | .editField name step => fun key =>
    if name = key then (before key).map step.apply else before key

/-! ### The operations of a type -/

theorem find?_addField (type : ObjectType) (field : Field) :
    (type.addField field).fields.find? = withField field type.fields.find? := by
  funext key
  unfold addField withField
  split
  · next present found =>
    have sameLabel : present.label = field.label := Keyed.key_of_find?_eq_some found
    refine (Keyed.find?_insert type.fields (present.merge field) key).trans ?_
    rw [show (present.merge field).label = field.label from sameLabel]
    split
    · next same => rw [← same, found]; rfl
    · rfl
  · next absent =>
    refine (Keyed.find?_insert type.fields field key).trans ?_
    split
    · next same => rw [← same, absent]; rfl
    · rfl

theorem wiring_addField (type : ObjectType) (field : Field) :
    (type.addField field).wiring = type.wiring := by
  unfold addField
  split <;> rfl

/-- An entry adds a field if one can be made of it. -/
theorem find?_createFromEntry (type : ObjectType) (entry : String × Json) :
    (type.createFromEntry entry).1.fields.find? =
      withEntry type.wiring type.fields.find? entry := by
  unfold createFromEntry withEntry createField
  cases FieldConfig.ofJson? entry.2 with
  | none => rfl
  | some config =>
    dsimp only
    cases Field.make entry.1 config type.wiring with
    | ok field => exact type.find?_addField field
    | error failure => rfl

theorem wiring_createFromEntry (type : ObjectType) (entry : String × Json) :
    (type.createFromEntry entry).1.wiring = type.wiring := by
  unfold createFromEntry createField
  cases FieldConfig.ofJson? entry.2 with
  | none => rfl
  | some config =>
    dsimp only
    cases Field.make entry.1 config type.wiring with
    | ok field => exact type.wiring_addField field
    | error failure => rfl

/-- Entries take effect one after the other. -/
theorem find?_createFields (type : ObjectType) (settings : Json.Settings) :
    (type.createFields settings).1.fields.find? =
      settings.members.foldl (withEntry type.wiring) type.fields.find? := by
  have created : ∀ (entries : List (String × Json)) (before : ObjectType × List Problem),
      (entries.foldl
        (fun (before : ObjectType × List Problem) entry =>
          let after := before.1.createFromEntry entry
          (after.1, before.2 ++ after.2))
        before).1.fields.find? =
        entries.foldl (withEntry before.1.wiring) before.1.fields.find? := by
    intro entries
    induction entries with
    | nil => exact fun _ => rfl
    | cons first others inductionHypothesis =>
      intro before
      rw [List.foldl_cons, List.foldl_cons, inductionHypothesis, find?_createFromEntry,
        wiring_createFromEntry]
  exact created settings.members (type, [])

/-- What is found under each key after an operation depends on what was found before alone. -/
theorem Step.find?_apply (type : ObjectType) (step : Step) :
    (step.apply type).fields.find? = step.found type.wiring type.fields.find? := by
  cases step with
  | setDescription description => rfl
  | addField field => exact type.find?_addField field
  | createField definition config =>
    unfold Step.apply Step.found ObjectType.createField withMade
    dsimp only
    cases Field.make definition config type.wiring with
    | ok field => exact type.find?_addField field
    | error failure => rfl
  | createFields settings => exact type.find?_createFields settings
  | removeField name => exact funext fun key => Keyed.find?_erase type.fields name key
  | editField name step => exact funext fun key => type.find?_editField name step key

/-! ### Keys are names -/

/-- Whether each field is found under its own name only. -/
def KeysAreNames (found : String → Option Field) : Prop :=
  ∀ key, ∀ field ∈ found key, field.label = key

theorem KeysAreNames.withField {before : String → Option Field} (named : KeysAreNames before)
    (field : Field) : KeysAreNames (withField field before) := by
  intro key
  unfold ObjectType.withField
  split
  · next same =>
    rintro _ ⟨⟩
    cases found : before key with
    | none => exact same
    | some present => exact named key present found
  · exact named key

theorem KeysAreNames.withMade {before : String → Option Field} (named : KeysAreNames before)
    (made : Except Failure Field) : KeysAreNames (withMade made before) := by
  cases made with
  | ok field => exact named.withField field
  | error failure => exact named

/-- A field that an entry creates is found under its own name. -/
theorem KeysAreNames.withEntry {before : String → Option Field} (named : KeysAreNames before)
    (wiring : Wiring) (entry : String × Json) : KeysAreNames (withEntry wiring before entry) := by
  unfold ObjectType.withEntry
  split
  · exact named.withMade _
  · exact named

/-- No operation puts a field under another key than its name. -/
theorem Step.keysAreNames_found {before : String → Option Field} (named : KeysAreNames before)
    (wiring : Wiring) (step : Step) : KeysAreNames (step.found wiring before) := by
  cases step with
  | setDescription description => exact named
  | addField field => exact named.withField field
  | createField definition config => exact named.withMade _
  | createFields settings =>
    exact List.foldlRecOn (motive := KeysAreNames) settings.members _ named
      fun _ soFar entry _ => soFar.withEntry wiring entry
  | removeField name =>
    intro key
    unfold Step.found
    dsimp only
    split
    · exact Field.forall_mem_of_eq_none rfl _
    · exact named key
  | editField name step =>
    intro key field found
    unfold Step.found at found
    dsimp only at found
    split at found
    · obtain ⟨present, isPresent, rfl⟩ := Option.map_eq_some_iff.mp found
      exact (step.label_apply present).trans (named key present isPresent)
    · exact named key field found

end SchemaAssembly.ObjectType
