/-
This file says which attributes a field is made with: its type, its description, its targets and
its context. Each of them is settled by one key of a configuration and by nothing else. As a field
is only made when no entry of its configuration meets a problem, the value under the key is always
a good one, and the attribute is what the value stands for.
-/

import SchemaAssembly.Proofs.Field.Reached

namespace SchemaAssembly

/-! ### What an entry does to the attributes -/

/-- The parts of a field that a configuration can settle beside the arguments. -/
@[ext]
structure Attributes where
  type? : Option ConfiguredType
  description : Option String
  resolver : Option Target
  defaultResolver : Option Target
  context : Mapping String Json

namespace Attributes

/-- The attributes of a field that has not been configured. -/
def blank : Attributes := ⟨none, none, none, none, ∅⟩

/-- The type after the value under its key has been applied. -/
def typeAfter : Json → Option ConfiguredType → Option ConfiguredType
  | .text type, _ => some (.written type)
  | _, before => before

/-- The description after the value under its key has been applied. -/
def descriptionAfter : Json → Option String → Option String
  | .text description, _ => some description
  | .null, _ => none
  | _, before => before

/-- A target after the value under its key has been applied. -/
def targetAfter (value : Json) (before : Option Target) : Option Target :=
  match Target.ofJson value with
  | .ok target => target
  | .error _ => before

/-- The context after the value under its key has been applied. -/
def contextAfter : Json → Mapping String Json → Mapping String Json
  | .object members, before => before.insertAll (Keyed.ofList members : Json.Settings).members
  | _, before => before

/-- The attributes after an entry of a configuration has been applied. -/
def afterEntry (before : Attributes) (entry : String × Json) : Attributes where
  type? := if entry.1 = "type" then typeAfter entry.2 before.type? else before.type?
  description :=
    if entry.1 = "description" then descriptionAfter entry.2 before.description
    else before.description
  resolver :=
    if entry.1 = "resolver" then targetAfter entry.2 before.resolver else before.resolver
  defaultResolver :=
    if entry.1 = "defaultResolver" then targetAfter entry.2 before.defaultResolver
    else before.defaultResolver
  context :=
    if entry.1 = "resolverContext" then contextAfter entry.2 before.context else before.context

/-- The attributes after a mapping has been applied. -/
def afterSettings (before : Attributes) (settings : Json.Settings) : Attributes where
  type? := settings.effectUnder "type" typeAfter before.type?
  description := settings.effectUnder "description" descriptionAfter before.description
  resolver := settings.effectUnder "resolver" targetAfter before.resolver
  defaultResolver := settings.effectUnder "defaultResolver" targetAfter before.defaultResolver
  context := settings.effectUnder "resolverContext" contextAfter before.context

end Attributes

namespace Field

/-- The attributes of a field. -/
def attributes (field : Field) : Attributes :=
  ⟨field.type?, field.description, field.resolver, field.defaultResolver, field.context⟩

theorem attributes_configureArgument (field : Field) (name : String) (config : ArgumentConfig) :
    (field.configureArgument name config).1.attributes = field.attributes := by
  rcases configureArgument_fst field name config with same | ⟨argument, -, -, put⟩
  · rw [same]
  · rw [put]
    rfl

theorem attributes_applyArgument (field : Field) (entry : String × Json) :
    (field.applyArgument entry).1.attributes = field.attributes := by
  unfold applyArgument
  split
  · rfl
  · exact attributes_configureArgument field _ _
  · exact attributes_configureArgument field _ _
  · rfl

/-- Arguments leave the attributes alone. -/
theorem attributes_applyArguments (field : Field) (settings : Json.Settings) :
    (field.applyArguments settings).1.attributes = field.attributes := by
  let unchanged : Field → Prop := fun between => between.attributes = field.attributes
  have kept : ∀ between entry, unchanged between → unchanged (between.applyArgument entry).1 :=
    fun between entry soFar => (attributes_applyArgument between entry).trans soFar
  exact applyAll_invariant kept rfl settings.members

/-- Each attribute is settled under its own key, and a bad value leaves it as it was. -/
theorem attributes_applyEntry (field : Field) (entry : String × Json) :
    (field.applyEntry entry).1.attributes = field.attributes.afterEntry entry := by
  unfold applyEntry
  split
  case h_3 => exact attributes_applyArguments field _
  case h_2 value notText =>
    cases value with
    | text type => exact absurd rfl (notText type)
    | _ => rfl
  case h_8 value notText notNull =>
    cases value with
    | text description => exact absurd rfl (notText description)
    | null => exact absurd rfl notNull
    | _ => rfl
  case h_9 value | h_10 value =>
    unfold readTarget Attributes.afterEntry Attributes.targetAfter
    cases Target.ofJson value <;> rfl
  case h_13 value notObject notNull =>
    cases value with
    | object members => exact absurd rfl (notObject members)
    | _ => rfl
  case h_14 =>
    obtain ⟨name, value⟩ := entry
    simp_all [Attributes.afterEntry]
  all_goals rfl

/-- Of the entries of a mapping, each attribute takes the one under its key. -/
theorem attributes_applyAll (field : Field) (settings : Json.Settings) :
    (applyAll applyEntry field settings.members).1.attributes =
      field.attributes.afterSettings settings := by
  have ofPart : ∀ {β : Type} (part : Attributes → β) {key : String} (effect : Json → β → β),
      (∀ before entry, part (before.afterEntry entry) =
        if entry.1 = key then effect entry.2 (part before) else part before) →
      part (applyAll applyEntry field settings.members).1.attributes =
        settings.effectUnder key effect (part field.attributes) := by
    intro β part key effect single
    refine observe_applyAll (fun between => part between.attributes) effect ?_ field settings
    exact fun between entry =>
      (congrArg part (attributes_applyEntry between entry)).trans (single _ entry)
  exact Attributes.ext (ofPart Attributes.type? Attributes.typeAfter fun _ _ => rfl)
    (ofPart Attributes.description Attributes.descriptionAfter fun _ _ => rfl)
    (ofPart Attributes.resolver Attributes.targetAfter fun _ _ => rfl)
    (ofPart Attributes.defaultResolver Attributes.targetAfter fun _ _ => rfl)
    (ofPart Attributes.context Attributes.contextAfter fun _ _ => rfl)

theorem arguments_applyEntry (field : Field) {entry : String × Json}
    (notArguments : entry.1 ≠ "args") :
    (field.applyEntry entry).1.arguments = field.arguments := by
  unfold applyEntry
  split
  case h_3 | h_4 | h_5 => exact absurd rfl notArguments
  case h_9 | h_10 => split <;> rfl
  all_goals rfl

end Field

/-! ### What a configuration says -/

namespace FieldConfig

/-- The value under a key. -/
def value? (key : String) : FieldConfig → Option Json
  | .mapping settings => settings.get? key
  | _ => none

/-- The type, be it given alone or in a mapping. -/
def type? : FieldConfig → Option ConfiguredType
  | .type given => some given
  | config =>
    match config.value? "type" with
    | some (.text given) => some (.written given)
    | _ => none

/-- The description. -/
def description? (config : FieldConfig) : Option String :=
  match config.value? "description" with
  | some (.text description) => some description
  | _ => none

/-- The target under a key. -/
def target? (key : String) (config : FieldConfig) : Option Target :=
  match config.value? key with
  | some value => (Target.ofJson value).toOption.join
  | none => none

/-- The context. -/
def context (config : FieldConfig) : Mapping String Json :=
  match config.value? "resolverContext" with
  | some (.object members) => Keyed.ofList members
  | _ => ∅

/-- All that a configuration says but for the arguments. -/
def attributes (config : FieldConfig) : Attributes :=
  ⟨config.type?, config.description?, config.target? "resolver", config.target? "defaultResolver",
    config.context⟩

/-- A target is the one that a configuration gives under a key, or the fallback where the
configuration does not mention the key. -/
def Gives (config : FieldConfig) (key : String) (fallback target : Option Target) : Prop :=
  match config.value? key with
  | some value => Target.ofJson value = .ok target
  | none => target = fallback

end FieldConfig

namespace Field

/-- What a mapping says is what it makes of a field that had no attributes. -/
theorem attributes_mapping (settings : Json.Settings) :
    FieldConfig.attributes (.mapping settings) = Attributes.blank.afterSettings settings := by
  have ofTarget : ∀ key, FieldConfig.target? key (.mapping settings) =
      settings.effectUnder key Attributes.targetAfter none := by
    intro key
    unfold FieldConfig.target? FieldConfig.value? Keyed.effectUnder Attributes.targetAfter
    dsimp only
    cases settings.get? key with
    | none => rfl
    | some value =>
      dsimp only
      cases Target.ofJson value <;> rfl
  refine Attributes.ext ?_ ?_ (ofTarget "resolver") (ofTarget "defaultResolver") ?_
  · unfold FieldConfig.attributes FieldConfig.type? FieldConfig.value? Attributes.afterSettings
      Keyed.effectUnder
    dsimp only
    cases settings.get? "type" with
    | none => rfl
    | some value => cases value <;> rfl
  · unfold FieldConfig.attributes FieldConfig.description? FieldConfig.value?
      Attributes.afterSettings Keyed.effectUnder
    dsimp only
    cases settings.get? "description" with
    | none => rfl
    | some value => cases value <;> rfl
  · unfold FieldConfig.attributes FieldConfig.context FieldConfig.value? Attributes.afterSettings
      Keyed.effectUnder
    dsimp only
    cases settings.get? "resolverContext" with
    | none => rfl
    | some value =>
      cases value with
      | object members => exact (Keyed.ofList_members _).symm
      | _ => rfl

/-- A field is made with the attributes of its configuration. -/
theorem attributes_of_make {definition : String} {config : FieldConfig} {wiring : Wiring}
    {field : Field} (made : make definition config wiring = .ok field) :
    field.attributes = config.attributes := by
  obtain ⟨name, arguments, -, configured⟩ := make_eq_ok_iff.mp made
  cases config with
  | type given =>
    cases configured
    rfl
  | template other =>
    cases configured
    rfl
  | mapping settings =>
    have ofRun := attributes_applyAll (unconfigured definition name arguments wiring) settings
    rw [applyAll_of_configure configured] at ofRun
    rw [attributes_mapping]
    exact ofRun

/-- A value under the key of a target is read without error where a field is made. -/
theorem ofJson_of_make {definition : String} {config : FieldConfig} {wiring : Wiring}
    {field : Field} (made : make definition config wiring = .ok field) {key : String}
    (isTarget : key = "resolver" ∨ key = "defaultResolver") {value : Json}
    (given : config.value? key = some value) :
    Target.ofJson value = .ok (config.target? key) := by
  obtain ⟨name, arguments, -, configured⟩ := make_eq_ok_iff.mp made
  cases config with
  | type | template => cases given
  | mapping settings =>
    obtain ⟨between, noProblem⟩ := exists_of_applyAll_eq_nil
      (congrArg Prod.snd (applyAll_of_configure configured)) (Keyed.mem_of_get?_eq_some given)
    rw [FieldConfig.target?, given]
    dsimp only
    cases read : Target.ofJson value with
    | ok target => rfl
    | error reason =>
      rcases isTarget with rfl | rfl <;>
      · simp only [applyEntry, readTarget, read] at noProblem
        cases noProblem

/-- A field is made with the targets that its configuration gives. -/
theorem gives_of_make {definition : String} {config : FieldConfig} {wiring : Wiring}
    {field : Field} (made : make definition config wiring = .ok field) {key : String}
    (isTarget : key = "resolver" ∨ key = "defaultResolver") :
    config.Gives key none (config.target? key) := by
  unfold FieldConfig.Gives
  split
  · next value given => exact ofJson_of_make made isTarget given
  · next notGiven => rw [FieldConfig.target?, notGiven]

/-- A field is made under the name of its definition. -/
theorem nameAndArguments_of_make {definition : String} {config : FieldConfig} {wiring : Wiring}
    {field : Field} (made : make definition config wiring = .ok field) :
    ∃ arguments, nameAndArguments definition = .ok (field.name, arguments) := by
  obtain ⟨name, arguments, read, configured⟩ := make_eq_ok_iff.mp made
  have becomes := becomes_configure (unconfigured definition name arguments wiring) config
  rw [configured] at becomes
  exact ⟨arguments, becomes.sameName ▸ read⟩

/-- Where the configuration says nothing about arguments, a field has those of its definition. -/
theorem arguments_of_make {definition : String} {settings : Json.Settings} {wiring : Wiring}
    {field : Field} (made : make definition (.mapping settings) wiring = .ok field)
    (noArguments : "args" ∉ settings.keys) :
    nameAndArguments definition = .ok (field.name, field.arguments) := by
  obtain ⟨name, arguments, read, configured⟩ := make_eq_ok_iff.mp made
  let start := unconfigured definition name arguments wiring
  let unchanged : Field → Prop := fun between =>
    between.name = name ∧ between.arguments = arguments
  have kept : ∀ between, ∀ entry ∈ settings.members, unchanged between →
      unchanged (between.applyEntry entry).1 := by
    intro between entry isEntry ⟨sameName, sameArguments⟩
    have notArguments : entry.1 ≠ "args" := fun same =>
      noArguments (same ▸ List.mem_map_of_mem isEntry)
    exact ⟨(becomes_applyEntry between entry).sameName.trans sameName,
      (arguments_applyEntry between notArguments).trans sameArguments⟩
  have both : unchanged (applyAll applyEntry start settings.members).1 :=
    applyAll_invariant_of_mem kept ⟨rfl, rfl⟩
  rw [applyAll_of_configure configured] at both
  obtain ⟨rfl, rfl⟩ := both
  exact read

end Field

end SchemaAssembly
