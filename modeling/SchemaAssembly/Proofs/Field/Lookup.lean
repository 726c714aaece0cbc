/-
This file says what the operations on a field do to its arguments, key by key. An operation
touches the keys that it names and no others, and what is found under a key afterwards depends
only on what was found there before. Described in this way, with the keys apart from the
arguments, no operation puts an argument under another key than its name.
-/

import SchemaAssembly.Proofs.Field.Reached

namespace SchemaAssembly

namespace Argument

/-! ### One key -/

/-- What is found under a name after it has been configured: an argument that is there is changed,
a new one is there if the configuration is good. A name that is not valid is refused. -/
def afterConfig (field name : String) (config : ArgumentConfig) (before : Option Argument) :
    Option Argument :=
  if isName name then
    match before with
    | some argument => some (argument.configure config field).1
    | none => (ofConfig name config field).toOption
  else before

/-- What is found under a name after its entry of an arguments mapping has been applied. -/
def afterEntry (field name : String) (value : Json) (before : Option Argument) :
    Option Argument :=
  match value with
  | .boolean false => none
  | .text type => afterConfig field name (.type (.written type)) before
  | .object members => afterConfig field name (.mapping (Keyed.ofList members)) before
  | _ => before

/-- What is found under a name after an arguments mapping has been applied. -/
def afterSettings (field name : String) (settings : Json.Settings) (before : Option Argument) :
    Option Argument :=
  match settings.get? name with
  | some value => afterEntry field name value before
  | none => before

/-- What is found under a name after the entry for arguments of a configuration has been
applied. -/
def afterArguments (field name : String) (value : Json) (before : Option Argument) :
    Option Argument :=
  match value with
  | .object members => afterSettings field name (Keyed.ofList members) before
  | _ => before

/-- What is left under a name is an argument of that name. -/
theorem name_of_mem_afterConfig {field name : String} {config : ArgumentConfig}
    {before : Option Argument} (named : ∀ argument ∈ before, argument.name = name) :
    ∀ argument ∈ afterConfig field name config before, argument.name = name := by
  unfold afterConfig
  split
  · cases before with
    | some argument =>
      rintro _ ⟨⟩
      exact (argument.name_configure config field).trans (named argument rfl)
    | none =>
      intro argument made
      cases isMade : ofConfig name config field with
      | ok new =>
        rw [isMade] at made
        cases made
        exact name_of_ofConfig isMade
      | error problem =>
        rw [isMade] at made
        cases made
  · exact named

theorem name_of_mem_afterSettings {field name : String} {settings : Json.Settings}
    {before : Option Argument} (named : ∀ argument ∈ before, argument.name = name) :
    ∀ argument ∈ afterSettings field name settings before, argument.name = name := by
  unfold afterSettings
  split
  · unfold afterEntry
    split
    · exact Field.forall_mem_of_eq_none rfl _
    · exact name_of_mem_afterConfig named
    · exact name_of_mem_afterConfig named
    · exact named
  · exact named

theorem name_of_mem_afterArguments {field name : String} {value : Json}
    {before : Option Argument} (named : ∀ argument ∈ before, argument.name = name) :
    ∀ argument ∈ afterArguments field name value before, argument.name = name := by
  unfold afterArguments
  split
  · exact name_of_mem_afterSettings named
  · exact named

end Argument

namespace Field

/-! ### All keys -/

/-- What is found under each key after an operation on the field with the given label, from what
was found before. -/
def Step.found (label : String) (before : String → Option Argument) :
    Step → String → Option Argument
  | .putArgument argument => fun key => if argument.name = key then some argument else before key
  | .removeArgument name => fun key => if name = key then none else before key
  | .merge other | .configure (.template other) => fun key =>
    (other.arguments.find? key).or (before key)
  | .configureArgument name config => fun key =>
    if name = key then Argument.afterConfig label key config (before key) else before key
  | .configureArguments settings => fun key =>
    Argument.afterSettings label key settings (before key)
  | .configure (.mapping settings) => fun key =>
    match settings.get? "args" with
    | some value =>
      if settings.keys.all FieldConfig.keys.contains then
        Argument.afterArguments label key value (before key)
      else before key
    | none => before key
  | .configure (.type _) | .setType _ | .setDescription _ | .setResolver _ |
    .setDefaultResolver _ | .addContext _ _ => before

/-- Configuring an argument has an effect under its name only. -/
theorem find?_configureArgument (field : Field) (name : String) (config : ArgumentConfig)
    (key : String) :
    (field.configureArgument name config).1.arguments.find? key =
      if name = key then
        Argument.afterConfig field.label key config (field.arguments.find? key)
      else field.arguments.find? key := by
  have written : ∀ argument : Argument, argument.name = name →
      (field.putArgument argument).arguments.find? key =
        if name = key then some argument else field.arguments.find? key := by
    rintro argument rfl
    exact Keyed.find?_insert field.arguments argument key
  unfold Argument.afterConfig
  cases valid : isName name with
  | false =>
    rw [configureArgument_of_not_isName valid]
    split
    · next same => rw [← same, valid]; rfl
    · rfl
  | true =>
    cases found : field.arguments.find? name with
    | some argument =>
      have sameName : (argument.configure config field.label).1.name = name :=
        (argument.name_configure config field.label).trans (Keyed.key_of_find?_eq_some found)
      rw [configureArgument_of_find?_eq_some valid found, written _ sameName]
      split
      · next same => rw [← same, valid, found]; rfl
      · rfl
    | none =>
      rw [configureArgument_of_find?_eq_none valid found]
      cases made : Argument.ofConfig name config field.label with
      | ok argument =>
        dsimp only
        rw [written argument (Argument.name_of_ofConfig made)]
        split
        · next same => rw [← same, valid, found, made]; rfl
        · rfl
      | error problem =>
        dsimp only
        split
        · next same => rw [← same, valid, found, made]; rfl
        · rfl

theorem find?_applyArgument (field : Field) (entry : String × Json) (key : String) :
    (field.applyArgument entry).1.arguments.find? key =
      if entry.1 = key then
        Argument.afterEntry field.label key entry.2 (field.arguments.find? key)
      else field.arguments.find? key := by
  unfold applyArgument
  split
  · exact Keyed.find?_erase field.arguments _ key
  · exact find?_configureArgument field _ _ key
  · exact find?_configureArgument field _ _ key
  · next name value notFalse notText notObject =>
    have untouched : ∀ before, Argument.afterEntry field.label key value before = before := by
      intro before
      unfold Argument.afterEntry
      split
      · exact absurd rfl notFalse
      · exact absurd rfl (notText _)
      · exact absurd rfl (notObject _)
      · rfl
    rw [untouched, ite_self]

/-- Of the steps for the entries of a mapping, only the one for the wanted key has an effect. It
depends on the label, so label and argument are observed together. -/
theorem find?_applyAll {step : Field → String × Json → Outcome} {key wanted : String}
    (effect : String → Json → Option Argument → Option Argument)
    (sameLabel : ∀ field entry, (step field entry).1.label = field.label)
    (single : ∀ field entry, (step field entry).1.arguments.find? key =
      if entry.1 = wanted then effect field.label entry.2 (field.arguments.find? key)
      else field.arguments.find? key)
    (field : Field) (settings : Json.Settings) :
    (applyAll step field settings.members).1.arguments.find? key =
      match settings.get? wanted with
      | some value => effect field.label value (field.arguments.find? key)
      | none => field.arguments.find? key := by
  let observe : Field → String × Option Argument := fun field =>
    (field.label, field.arguments.find? key)
  have both : ∀ field entry, observe (step field entry).1 =
      if entry.1 = wanted then ((observe field).1, effect (observe field).1 entry.2 (observe field).2)
      else observe field := by
    intro field entry
    refine Prod.ext ?_ ?_
    · show (step field entry).1.label = _
      rw [sameLabel]
      split <;> rfl
    · show (step field entry).1.arguments.find? key = _
      rw [single]
      split <;> rfl
  have observed := observe_applyAll observe
    (fun value before => (before.1, effect before.1 value before.2)) both field settings
  refine (congrArg Prod.snd observed).trans ?_
  unfold Keyed.effectUnder
  cases settings.get? wanted <;> rfl

theorem find?_applyArguments (field : Field) (settings : Json.Settings) (key : String) :
    (field.applyArguments settings).1.arguments.find? key =
      Argument.afterSettings field.label key settings (field.arguments.find? key) :=
  find?_applyAll (fun label => Argument.afterEntry label key)
    (fun field entry => (becomes_applyArgument field entry).sameLabel)
    (fun field entry => find?_applyArgument field entry key) field settings

theorem find?_applyEntry (field : Field) (entry : String × Json) (key : String) :
    (field.applyEntry entry).1.arguments.find? key =
      if entry.1 = "args" then
        Argument.afterArguments field.label key entry.2 (field.arguments.find? key)
      else field.arguments.find? key := by
  obtain ⟨name, value⟩ := entry
  by_cases isArguments : name = "args"
  · subst isArguments
    cases value with
    | object members => exact find?_applyArguments field _ key
    | _ => rfl
  · rw [if_neg isArguments]
    unfold applyEntry
    split
    case h_3 | h_4 | h_5 => exact absurd (congrArg Prod.fst ‹(name, value) = _›) isArguments
    case h_9 | h_10 => split <;> rfl
    all_goals rfl

/-- A mapping has an effect on arguments through its entry for them only, and only if all its keys
are known. -/
theorem find?_configure_mapping (field : Field) (settings : Json.Settings) (key : String) :
    (field.configure (.mapping settings)).1.arguments.find? key =
      match settings.get? "args" with
      | some value =>
        if settings.keys.all FieldConfig.keys.contains then
          Argument.afterArguments field.label key value (field.arguments.find? key)
        else field.arguments.find? key
      | none => field.arguments.find? key := by
  rw [configure_mapping]
  cases settings.keys.all FieldConfig.keys.contains with
  | true =>
    exact find?_applyAll (fun label => Argument.afterArguments label key)
      (fun field entry => (becomes_applyEntry field entry).sameLabel)
      (fun field entry => find?_applyEntry field entry key) field settings
  | false => cases settings.get? "args" <;> rfl

/-- What is found under each key after an operation depends on what was found before alone. -/
theorem Step.find?_apply (field : Field) (step : Step) :
    (step.apply field).arguments.find? = step.found field.label field.arguments.find? := by
  funext key
  cases step with
  | configure config =>
    cases config with
    | type type => rfl
    | template other => exact Keyed.find?_insertAll_members field.arguments other.arguments key
    | mapping settings => exact find?_configure_mapping field settings key
  | configureArguments settings => exact find?_applyArguments field settings key
  | configureArgument name config => exact find?_configureArgument field name config key
  | putArgument argument => exact Keyed.find?_insert field.arguments argument key
  | removeArgument name => exact Keyed.find?_erase field.arguments name key
  | merge other => exact Keyed.find?_insertAll_members field.arguments other.arguments key
  | setType | setDescription | setResolver | setDefaultResolver | addContext => rfl

/-! ### Keys are names -/

/-- Whether each argument is found under its own name only. -/
def KeysAreNames (found : String → Option Argument) : Prop :=
  ∀ key, ∀ argument ∈ found key, argument.name = key

/-- No operation puts an argument under another key than its name. -/
theorem Step.keysAreNames_found {label : String} {before : String → Option Argument}
    (named : KeysAreNames before) (step : Step) : KeysAreNames (step.found label before) := by
  have merged : ∀ other : Field,
      KeysAreNames fun key => (other.arguments.find? key).or (before key) := by
    intro other key argument found
    rcases Option.or_eq_some_iff.mp found with ofOther | ⟨-, kept⟩
    · exact Keyed.key_of_find?_eq_some ofOther
    · exact named key argument kept
  cases step with
  | configure config =>
    cases config with
    | type type => exact named
    | template other => exact merged other
    | mapping settings =>
      intro key
      unfold Step.found
      dsimp only
      split
      · split
        · exact Argument.name_of_mem_afterArguments (named key)
        · exact named key
      · exact named key
  | configureArguments settings => exact fun key => Argument.name_of_mem_afterSettings (named key)
  | configureArgument name config =>
    intro key
    unfold Step.found
    dsimp only
    split
    · exact Argument.name_of_mem_afterConfig (named key)
    · exact named key
  | putArgument argument =>
    intro key
    unfold Step.found
    dsimp only
    split
    · next same =>
      rintro _ ⟨⟩
      exact same
    · exact named key
  | removeArgument name =>
    intro key
    unfold Step.found
    dsimp only
    split
    · exact forall_mem_of_eq_none rfl _
    · exact named key
  | merge other => exact merged other
  | setType | setDescription | setResolver | setDefaultResolver | addContext => exact named

end Field

end SchemaAssembly
