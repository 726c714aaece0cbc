/-
This file proves what all fields have in common that come about through the operations on fields,
whichever they are, and whether they succeed or fail halfway. A field keeps its name. Its
arguments stand under their names, and these are valid, save those of arguments that were put
into some field as they are: every other way into a field leads past a check of the name.
-/

import SchemaAssembly.Proofs.Field.Configuration

namespace SchemaAssembly

/-- Whether the name of an argument is valid. -/
def Argument.IsNamed (argument : Argument) : Prop :=
  isName argument.name = true

/-- The field whose arguments a configuration takes over. -/
def FieldConfig.template? : FieldConfig → Option Field
  | .template field => some field
  | _ => none

namespace Field

/-! ### Operations -/

/-- The operations on a field. -/
inductive Step
  | configure (config : FieldConfig)
  | configureArguments (settings : Json.Settings)
  | configureArgument (name : String) (config : ArgumentConfig)
  | putArgument (argument : Argument)
  | removeArgument (name : String)
  | merge (other : Field)
  | setType (type : ConfiguredType)
  | setDescription (description : Option String)
  | setResolver (target : Option Target)
  | setDefaultResolver (target : Option Target)
  | addContext (key : String) (value : Json)

namespace Step

/-- The field after an operation. One that fails leaves what it has done until then. -/
def apply (field : Field) : Step → Field
  | .configure config => (field.configure config).1
  | .configureArguments settings => (field.applyArguments settings).1
  | .configureArgument name config => (field.configureArgument name config).1
  | .putArgument argument => field.putArgument argument
  | .removeArgument name => field.removeArgument name
  | .merge other => field.merge other
  | .setType type => { field with type? := some type }
  | .setDescription description => { field with description := description }
  | .setResolver target => { field with resolver := target }
  | .setDefaultResolver target => { field with defaultResolver := target }
  | .addContext key value => field.addContext key value

/-- The field that an operation reads beside the one it changes. -/
def other? : Step → Option Field
  | .configure config => config.template?
  | .merge other => some other
  | _ => none

/-- The argument that an operation puts into the field as it is. -/
def inserted? : Step → Option Argument
  | .putArgument argument => some argument
  | _ => none

end Step

/-! ### What an operation can do -/

/-- What becomes of a field: it keeps its name, and every argument that it gets is accepted. -/
structure Becomes (accepted : Argument → Prop) (before after : Field) : Prop where
  sameName : after.name = before.name
  keptOrAccepted : ∀ argument ∈ after.arguments.members,
    argument ∈ before.arguments.members ∨ accepted argument

section Becomes

variable {accepted : Argument → Prop}

theorem becomes_of_same {before after : Field} (sameName : after.name = before.name)
    (sameArguments : after.arguments = before.arguments) : Becomes accepted before after :=
  ⟨sameName, fun _ present => Or.inl (sameArguments ▸ present)⟩

theorem Becomes.refl (field : Field) : Becomes accepted field field :=
  becomes_of_same rfl rfl

/-- Two changes that bring accepted arguments only are one such change. -/
theorem Becomes.trans {first second third : Field} (before : Becomes accepted first second)
    (after : Becomes accepted second third) : Becomes accepted first third := by
  refine ⟨after.sameName.trans before.sameName, fun argument present => ?_⟩
  rcases after.keptOrAccepted argument present with kept | isAccepted
  · exact before.keptOrAccepted argument kept
  · exact Or.inr isAccepted

theorem Becomes.weaken {wider : Argument → Prop} {before after : Field}
    (becomes : Becomes accepted before after)
    (implied : ∀ argument, accepted argument → wider argument) : Becomes wider before after :=
  ⟨becomes.sameName, fun argument present =>
    (becomes.keptOrAccepted argument present).imp_right (implied argument)⟩

theorem Becomes.sameLabel {before after : Field} (becomes : Becomes accepted before after) :
    after.label = before.label :=
  congrArg Name.text becomes.sameName

/-- An argument that is put into a field is the only one that the field gets. -/
theorem becomes_putArgument (field : Field) {argument : Argument} (isAccepted : accepted argument) :
    Becomes accepted field (field.putArgument argument) := by
  refine ⟨rfl, fun member present => ?_⟩
  rcases Keyed.mem_of_mem_insert present with rfl | kept
  · exact Or.inr isAccepted
  · exact Or.inl kept

theorem becomes_removeArgument (field : Field) (name : String) :
    Becomes accepted field (field.removeArgument name) :=
  ⟨rfl, fun _ present => Or.inl (List.mem_filter.mp present).1⟩

/-- Merging brings arguments of the other field only. -/
theorem becomes_merge (field other : Field) :
    Becomes (· ∈ other.arguments.members) field (field.merge other) :=
  ⟨rfl, fun _ present => (Keyed.mem_of_mem_insertAll present).symm⟩

/-- Several steps bring accepted arguments only, if each of them does. -/
theorem becomes_applyAll {α : Type} {step : Field → α → Outcome}
    (single : ∀ field member, Becomes accepted field (step field member).1) (field : Field)
    (steps : List α) : Becomes accepted field (applyAll step field steps).1 :=
  applyAll_invariant (fun between member soFar => soFar.trans (single between member))
    (Becomes.refl field) steps

end Becomes

theorem becomes_configureArgument (field : Field) (name : String) (config : ArgumentConfig) :
    Becomes Argument.IsNamed field (field.configureArgument name config).1 := by
  rcases configureArgument_fst field name config with same | ⟨argument, rfl, valid, put⟩
  · rw [same]
    exact Becomes.refl field
  · rw [put]
    exact becomes_putArgument field valid

theorem becomes_applyArgument (field : Field) (entry : String × Json) :
    Becomes Argument.IsNamed field (field.applyArgument entry).1 := by
  unfold applyArgument
  split
  · exact becomes_removeArgument field _
  · exact becomes_configureArgument field _ _
  · exact becomes_configureArgument field _ _
  · exact Becomes.refl field

theorem becomes_applyArguments (field : Field) (settings : Json.Settings) :
    Becomes Argument.IsNamed field (field.applyArguments settings).1 :=
  becomes_applyAll becomes_applyArgument field settings.members

/-- An entry of a configuration brings arguments with valid names only. -/
theorem becomes_applyEntry (field : Field) (entry : String × Json) :
    Becomes Argument.IsNamed field (field.applyEntry entry).1 := by
  unfold applyEntry
  split
  case h_3 => exact becomes_applyArguments field _
  case h_9 | h_10 => split <;> exact becomes_of_same rfl rfl
  all_goals exact becomes_of_same rfl rfl

/-- A configuration brings arguments with valid names, and those of its template. -/
theorem becomes_configure (field : Field) (config : FieldConfig) :
    Becomes
      (fun argument => argument.IsNamed ∨
        ∃ other ∈ config.template?, argument ∈ other.arguments.members)
      field (field.configure config).1 := by
  cases config with
  | type type => exact becomes_of_same rfl rfl
  | template other =>
    refine (becomes_merge field other).weaken fun argument present => ?_
    exact Or.inr ⟨other, rfl, present⟩
  | mapping settings =>
    unfold configure
    dsimp only
    split
    · exact (becomes_applyAll becomes_applyEntry field settings.members).weaken
        fun _ named => Or.inl named
    · exact Becomes.refl field

/-- The arguments that an operation may bring: those with a valid name, the one that it puts into
the field as it is, and those of the other field that it reads. -/
def Step.Brings (step : Step) (argument : Argument) : Prop :=
  argument.IsNamed ∨ argument ∈ step.inserted? ∨
    ∃ other ∈ step.other?, argument ∈ other.arguments.members

theorem Step.becomes_apply (field : Field) (step : Step) :
    Becomes step.Brings field (step.apply field) := by
  cases step with
  | configure config =>
    exact (becomes_configure field config).weaken fun _ brought => brought.imp_right Or.inr
  | configureArguments settings =>
    exact (becomes_applyArguments field settings).weaken fun _ named => Or.inl named
  | configureArgument name config =>
    exact (becomes_configureArgument field name config).weaken fun _ named => Or.inl named
  | putArgument argument => exact becomes_putArgument field (Or.inr (Or.inl rfl))
  | removeArgument name => exact becomes_removeArgument field name
  | merge other =>
    refine (becomes_merge field other).weaken fun argument present => ?_
    exact Or.inr (Or.inr ⟨other, rfl, present⟩)
  | setType | setDescription | setResolver | setDefaultResolver | addContext =>
    exact becomes_of_same rfl rfl

/-- An operation leaves the text under which a field is kept. -/
theorem Step.label_apply (field : Field) (step : Step) :
    (step.apply field).label = field.label :=
  (step.becomes_apply field).sameLabel

/-! ### Fields that are made -/

/-- The arguments of a definition have names that were read, and those are valid. -/
theorem isNamed_of_nameAndArguments {definition : String} {name : Name}
    {arguments : Keyed Argument.name}
    (read : nameAndArguments definition = .ok (name, arguments)) {argument : Argument}
    (present : argument ∈ arguments.members) : argument.IsNamed := by
  unfold nameAndArguments at read
  split at read
  · cases read
    obtain ⟨inline, _, rfl⟩ := List.mem_map.mp (Keyed.mem_of_mem_ofList present)
    exact inline.name.isName_text
  · cases read

/-- A field is made with arguments that have valid names, and those of its template. -/
theorem isNamed_or_ofTemplate_of_make {definition : String} {config : FieldConfig}
    {wiring : Wiring} {field : Field} (made : make definition config wiring = .ok field)
    {argument : Argument} (present : argument ∈ field.arguments.members) :
    argument.IsNamed ∨ ∃ other ∈ config.template?, argument ∈ other.arguments.members := by
  obtain ⟨name, arguments, read, configured⟩ := make_eq_ok_iff.mp made
  have becomes := becomes_configure (unconfigured definition name arguments wiring) config
  rw [configured] at becomes
  rcases becomes.keptOrAccepted argument present with inline | brought
  · exact Or.inl (isNamed_of_nameAndArguments read inline)
  · exact brought

/-! ### Fields that are reached -/

theorem forall_mem_of_eq_none {α : Type} {option : Option α} (isNone : option = none)
    (property : α → Prop) : ∀ member ∈ option, property member := by
  rw [isNone]
  exact fun member present => absurd present (Option.not_mem_none member)

/-- The fields that come about through operations on fields, where only the `inserted` arguments
are put into a field as they are. -/
inductive Reached (inserted : Argument → Prop) : Field → Prop
  | make {definition : String} {config : FieldConfig} {wiring : Wiring} {field : Field}
      (made : Field.make definition config wiring = .ok field)
      (others : ∀ other ∈ config.template?, Reached inserted other) : Reached inserted field
  | step {field : Field} (before : Reached inserted field) (step : Step)
      (given : ∀ argument ∈ step.inserted?, inserted argument)
      (others : ∀ other ∈ step.other?, Reached inserted other) :
      Reached inserted (step.apply field)

/-- Whether an operation puts only `inserted` arguments into the field as they are, and reads no
field but those that are reached. -/
structure Step.IsFrom (inserted : Argument → Prop) (step : Step) : Prop where
  given : ∀ argument ∈ step.inserted?, inserted argument
  others : ∀ other ∈ step.other?, other.Reached inserted

/-- An operation on a field that is reached leads to another one. -/
theorem Reached.apply {inserted : Argument → Prop} {field : Field} (before : Reached inserted field)
    {step : Step} (isFrom : step.IsFrom inserted) : Reached inserted (step.apply field) :=
  before.step step isFrom.given isFrom.others

/-- A field that is made without a template is reached. -/
theorem reached_of_make {inserted : Argument → Prop} {definition : String} {config : FieldConfig}
    {wiring : Wiring} {field : Field} (made : Field.make definition config wiring = .ok field)
    (noTemplate : config.template? = none) : Reached inserted field :=
  .make made (forall_mem_of_eq_none noTemplate _)

/-- Operations that use nothing but the field itself can always be applied. -/
theorem Reached.applyAlone {inserted : Argument → Prop} {field : Field}
    (before : Reached inserted field) (step : Step) (nothingGiven : step.inserted? = none)
    (noOther : step.other? = none) : Reached inserted (step.apply field) :=
  before.step step (forall_mem_of_eq_none nothingGiven _) (forall_mem_of_eq_none noOther _)

theorem Reached.putArgument {inserted : Argument → Prop} {field : Field}
    (before : Reached inserted field) {argument : Argument} (isInserted : inserted argument) :
    Reached inserted (field.putArgument argument) := by
  have given : ∀ member ∈ Step.inserted? (.putArgument argument), inserted member := by
    rintro member ⟨⟩
    exact isInserted
  exact before.step (.putArgument argument) given (forall_mem_of_eq_none rfl _)

theorem Reached.merge {inserted : Argument → Prop} {field other : Field}
    (before : Reached inserted field) (ofOther : Reached inserted other) :
    Reached inserted (field.merge other) := by
  have onlyOther : ∀ read ∈ Step.other? (.merge other), Reached inserted read := by
    rintro read ⟨⟩
    exact ofOther
  exact before.step (.merge other) (forall_mem_of_eq_none rfl _) onlyOther

/-- An argument without a valid name was put into some field as it is. -/
theorem Reached.isNamed_or_inserted {inserted : Argument → Prop} {field : Field}
    (reached : Reached inserted field) :
    ∀ argument ∈ field.arguments.members, argument.IsNamed ∨ inserted argument := by
  induction reached with
  | make made others inductionHypothesis =>
    intro argument present
    rcases isNamed_or_ofTemplate_of_make made present with named | ⟨other, isTemplate, brought⟩
    · exact Or.inl named
    · exact inductionHypothesis other isTemplate argument brought
  | step before step given others inductionHypothesis ofOthers =>
    intro argument present
    rcases (step.becomes_apply _).keptOrAccepted argument present with
      kept | named | isGiven | ⟨other, isOther, brought⟩
    · exact inductionHypothesis argument kept
    · exact Or.inl named
    · exact Or.inr (given argument isGiven)
    · exact ofOthers other isOther argument brought

/-- The invariant of a field: its name is valid; its arguments have distinct keys and stand under
their own names; and a name that is not valid belongs to an `inserted` argument. -/
structure IsConsistent (inserted : Argument → Prop) (field : Field) : Prop where
  named : isName field.label = true
  distinct : field.arguments.keys.Nodup
  underName : ∀ key argument, field.arguments.find? key = some argument ↔
    argument ∈ field.arguments.members ∧ argument.name = key
  namedOrInserted : ∀ argument ∈ field.arguments.members, argument.IsNamed ∨ inserted argument

/-- Every field that is reached satisfies the invariant. -/
theorem Reached.isConsistent {inserted : Argument → Prop} {field : Field}
    (reached : Reached inserted field) : field.IsConsistent inserted where
  named := field.name.isName_text
  distinct := field.arguments.distinct
  underName _ _ := Keyed.find?_eq_some_iff
  namedOrInserted := reached.isNamed_or_inserted

end Field

end SchemaAssembly
