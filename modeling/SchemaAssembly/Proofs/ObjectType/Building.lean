/-
This file proves what an object type is built into. A type is built if its name is valid, if it
has a field, and if all its fields can be encoded; its definition then lists their definitions in
the order of the fields, and every field has its binding under its name. The keys that keep fields
and arguments apart inside the type are the names in the definition, so these are distinct, and no
definition is built over other than valid names.
-/

import SchemaAssembly.ObjectType
import SchemaAssembly.Proofs.Field.Encoding
import SchemaAssembly.Proofs.Keyed

namespace SchemaAssembly

/-! ### Definitions that are well formed -/

namespace FieldDefinition

/-- The names of the arguments. -/
def argumentNames (definition : FieldDefinition) : List String :=
  definition.arguments.map fun argument => argument.name.text

/-- The types of the field and of its arguments. -/
def types (definition : FieldDefinition) : List TypeRef :=
  definition.type :: definition.arguments.map ArgumentDefinition.type

/-- The arguments have valid and distinct names, and all types are built over valid names. -/
structure IsWellFormed (definition : FieldDefinition) : Prop where
  argumentsNamed : ∀ name ∈ definition.argumentNames, isName name = true
  argumentsDistinct : definition.argumentNames.Nodup
  typesNamed : ∀ type ∈ definition.types, isName type.innermost.text = true

end FieldDefinition

namespace ObjectDefinition

/-- The names of the fields. -/
def fieldNames (definition : ObjectDefinition) : List String :=
  definition.fields.map fun field => field.name.text

/-- The type has a valid name, and its fields have valid and distinct names and are well formed
themselves. -/
structure IsWellFormed (definition : ObjectDefinition) : Prop where
  named : isName definition.name.text = true
  fieldsNamed : ∀ name ∈ definition.fieldNames, isName name = true
  fieldsDistinct : definition.fieldNames.Nodup
  fieldsWellFormed : ∀ field ∈ definition.fields, field.IsWellFormed

end ObjectDefinition

/-! ### Names in the definition of a field -/

theorem map_eq_map_of_forall₂ {α β γ : Type} {relation : α → β → Prop} {first : α → γ}
    {second : β → γ} (same : ∀ left right, relation left right → first left = second right)
    {left : List α} {right : List β} (related : List.Forall₂ relation left right) :
    left.map first = right.map second := by
  induction related with
  | nil => rfl
  | cons head _ inductionHypothesis =>
    rw [List.map_cons, List.map_cons, same _ _ head, inductionHypothesis]

theorem map_eq_of_forall₂ {α β : Type} {relation : α → β → Prop} {image : α → β}
    (same : ∀ left right, relation left right → image left = right)
    {left : List α} {right : List β} (related : List.Forall₂ relation left right) :
    left.map image = right :=
  (map_eq_map_of_forall₂ same related).trans (List.map_id' right)

theorem forall_mem_of_forall₂ {α β : Type} {relation : α → β → Prop} {property : β → Prop}
    (implies : ∀ left right, relation left right → property right)
    {left : List α} {right : List β} (related : List.Forall₂ relation left right) :
    ∀ member ∈ right, property member := by
  induction related with
  | nil => exact List.forall_mem_nil _
  | cons head _ inductionHypothesis =>
    exact List.forall_mem_cons.mpr ⟨implies _ _ head, inductionHypothesis⟩

theorem map_eq_of_forall₂_of_forall₂ {α β γ : Type} {first : α → β → Prop} {second : β → γ → Prop}
    {image : α → γ}
    (same : ∀ left middle right, first left middle → second middle right → image left = right)
    {left : List α} {middle : List β} {right : List γ} (leads : List.Forall₂ first left middle)
    (goesOn : List.Forall₂ second middle right) : left.map image = right := by
  induction leads generalizing right with
  | nil =>
    cases goesOn
    rfl
  | cons head _ inductionHypothesis =>
    obtain ⟨next, others, headGoesOn, othersGoOn, rfl⟩ := List.forall₂_cons_left_iff.mp goesOn
    rw [List.map_cons, same _ _ _ head headGoesOn, inductionHypothesis othersGoOn]

namespace Field

variable {field : Field} {definition : FieldDefinition}

theorem name_of_toDefinition (defined : field.toDefinition = .ok definition) :
    definition.name = field.name :=
  (toDefinition_eq_ok_iff.mp defined).2.1

/-- The definition of a field names its arguments as the field does, in the same order. -/
theorem argumentNames_of_toDefinition (defined : field.toDefinition = .ok definition) :
    definition.argumentNames = field.arguments.keys := by
  obtain ⟨_, _, _, _, argumentsDefined⟩ := toDefinition_eq_ok_iff.mp defined
  have sameNames : field.arguments.members.map Argument.name =
      definition.arguments.map fun argument => argument.name.text := by
    refine map_eq_map_of_forall₂ (fun argument ofArgument argumentDefined => ?_) argumentsDefined
    exact (Argument.toDefinition_eq_ok_iff.mp argumentDefined).2.1.symm
  exact sameNames.symm

/-- Where a field has a definition, all its arguments have valid names. -/
theorem isName_of_toDefinition (defined : field.toDefinition = .ok definition)
    {argument : Argument} (present : argument ∈ field.arguments.members) :
    isName argument.name = true := by
  have isKey : argument.name ∈ field.arguments.keys := List.mem_map_of_mem present
  rw [← argumentNames_of_toDefinition defined] at isKey
  obtain ⟨argumentDefinition, _, sameName⟩ := List.mem_map.mp isKey
  exact sameName ▸ argumentDefinition.name.isName_text

theorem isWellFormed_of_toDefinition (defined : field.toDefinition = .ok definition) :
    definition.IsWellFormed where
  argumentsNamed name isArgument := by
    obtain ⟨argument, _, rfl⟩ := List.mem_map.mp isArgument
    exact argument.name.isName_text
  argumentsDistinct := by
    rw [argumentNames_of_toDefinition defined]
    exact field.arguments.distinct
  typesNamed type _ := type.innermost.isName_text

end Field

namespace ObjectType

/-! ### Building -/

/-- What is built from a field of a type: its definition and its binding, with the field itself. -/
structure IsPart (owner : String) (field : Field) (part : Field × FieldDefinition × Binding) :
    Prop where
  source : part.1 = field
  defined : field.toDefinition = .ok part.2.1
  bound : field.binding owner = .ok part.2.2

theorem isPart_iff {owner : String} {field : Field}
    {part : Field × FieldDefinition × Binding} :
    IsPart owner field part ↔
      ∃ built, buildField owner field = .ok built ∧ (field, built) = part := by
  simp only [buildField, Failure.bind_eq_ok_iff, Problem.alone_eq_ok_iff]
  constructor
  · rintro ⟨rfl, defined, bound⟩
    exact ⟨part.2, ⟨part.2.1, defined, part.2.2, bound, rfl⟩, rfl⟩
  · rintro ⟨built, ⟨definition, defined, binding, bound, ⟨⟩⟩, rfl⟩
    exact ⟨rfl, defined, bound⟩

/-- No problem is met if every field can be encoded. -/
theorem buildFields_eq_iff {owner : String} {fields : List Field}
    {parts : List (Field × FieldDefinition × Binding)} :
    buildFields owner fields = (parts, []) ↔ List.Forall₂ (IsPart owner) fields parts := by
  induction fields generalizing parts with
  | nil => simp [buildFields, eq_comm]
  | cons field others inductionHypothesis =>
    rw [buildFields, List.forall₂_cons_left_iff]
    simp only [← inductionHypothesis, isPart_iff]
    obtain ⟨further, problems⟩ := buildFields owner others
    cases buildField owner field with
    | error failure => simp [Failure.problems]
    | ok built => simp [eq_comm, and_comm]

theorem lackOfFields_eq_nil_iff {type : ObjectType} :
    type.lackOfFields = [] ↔ type.fields.isEmpty = false := by
  cases empty : type.fields.isEmpty <;> simp [lackOfFields, empty]

/-- A type is built if its name is valid, it has a field, and each field can be encoded. -/
theorem build_eq_ok_iff {type : ObjectType} {built : BuiltObject} :
    type.build = .ok built ↔
      built.definition.name.text = type.name ∧ type.fields.isEmpty = false ∧
        built.definition.description = type.description ∧
        ∃ parts, List.Forall₂ (IsPart type.name) type.fields.members parts ∧
          built.definition.fields = parts.map (fun part => part.2.1) ∧
          built.bindings = Keyed.ofList (parts.map fun part => (part.1.label, part.2.2)) := by
  obtain ⟨⟨description, name, fields⟩, bindings⟩ := built
  simp only [← buildFields_eq_iff, ← Name.ofText?_eq_some_iff, ← lackOfFields_eq_nil_iff]
  unfold build
  obtain ⟨parts, problems⟩ := buildFields type.name type.fields.members
  cases Name.ofText? type.name with
  | none => simp
  | some valid =>
    simp only [Failure.settle_eq_ok_iff, List.append_eq_nil_iff]
    constructor
    · rintro ⟨⟨someField, noProblems⟩, ⟨⟩⟩
      exact ⟨rfl, someField, rfl, parts, noProblems ▸ rfl, rfl, rfl⟩
    · rintro ⟨⟨⟩, someField, rfl, _, ⟨⟩, rfl, rfl⟩
      exact ⟨⟨someField, rfl⟩, rfl⟩

/-! ### The definition of a type -/

variable {type : ObjectType} {built : BuiltObject}

theorem fields_of_build (success : type.build = .ok built) :
    List.Forall₂ (fun field definition => field.toDefinition = .ok definition)
      type.fields.members built.definition.fields := by
  obtain ⟨_, _, _, parts, encoded, sameFields, _⟩ := build_eq_ok_iff.mp success
  rw [sameFields, List.forall₂_map_right_iff]
  exact encoded.imp fun field part isPart => isPart.defined

/-- The definition names the fields as the type does, in the same order. -/
theorem fieldNames_of_build (success : type.build = .ok built) :
    built.definition.fieldNames = type.fields.keys := by
  have sameNames : type.fields.members.map Field.label =
      built.definition.fields.map fun field => field.name.text := by
    refine map_eq_map_of_forall₂ (fun field definition defined => ?_) (fields_of_build success)
    rw [Field.name_of_toDefinition defined]
    rfl
  exact sameNames.symm

/-- The bindings stand under the names of the fields, in the same order, so none takes the place of
another. -/
theorem bindings_of_build (success : type.build = .ok built) :
    List.Forall₂ (fun field entry => entry.1 = field.label ∧ field.binding type.name = .ok entry.2)
      type.fields.members built.bindings.members := by
  obtain ⟨_, _, _, parts, encoded, _, sameBindings⟩ := build_eq_ok_iff.mp success
  have sameLabels : type.fields.keys = parts.map fun part => part.1.label :=
    map_eq_map_of_forall₂ (fun _ _ isPart => congrArg Field.label isPart.source.symm) encoded
  have distinct : ((parts.map fun part => (part.1.label, part.2.2)).map Prod.fst).Nodup := by
    rw [List.map_map]
    exact sameLabels ▸ type.fields.distinct
  rw [sameBindings, Keyed.members_ofList_of_nodup distinct, List.forall₂_map_right_iff]
  exact encoded.imp fun field part isPart => ⟨congrArg Field.label isPart.source, isPart.bound⟩

/-- Every field of the definition has one binding, and there are no others. -/
theorem keys_bindings_of_build (success : type.build = .ok built) :
    built.bindings.keys = built.definition.fieldNames := by
  rw [fieldNames_of_build success]
  exact (map_eq_map_of_forall₂ (fun _ _ bound => bound.1.symm) (bindings_of_build success)).symm

/-- Each field of the type is defined, and the definitions of the type are those of its fields. -/
theorem toDefinitions_of_build (success : type.build = .ok built) :
    type.fields.members.map Field.toDefinition = built.definition.fields.map .ok :=
  map_eq_map_of_forall₂ (fun _ _ defined => defined) (fields_of_build success)

theorem isWellFormed_of_build (success : type.build = .ok built) :
    built.definition.IsWellFormed where
  named := built.definition.name.isName_text
  fieldsNamed name isField := by
    obtain ⟨field, _, rfl⟩ := List.mem_map.mp isField
    exact field.name.isName_text
  fieldsDistinct := by
    rw [fieldNames_of_build success]
    exact type.fields.distinct
  fieldsWellFormed definition isField := by
    have isDefinition : Except.ok definition ∈ type.fields.members.map Field.toDefinition := by
      rw [toDefinitions_of_build success]
      exact List.mem_map_of_mem isField
    obtain ⟨field, _, defined⟩ := List.mem_map.mp isDefinition
    exact Field.isWellFormed_of_toDefinition defined

/-- A type is built only if all arguments of its fields have valid names. -/
theorem isName_of_build (success : type.build = .ok built) {field : Field}
    (isField : field ∈ type.fields.members) {argument : Argument}
    (present : argument ∈ field.arguments.members) : isName argument.name = true := by
  have isDefined : field.toDefinition ∈ built.definition.fields.map .ok := by
    rw [← toDefinitions_of_build success]
    exact List.mem_map_of_mem isField
  obtain ⟨definition, _, defined⟩ := List.mem_map.mp isDefined
  exact Field.isName_of_toDefinition defined.symm present

end ObjectType

end SchemaAssembly
