/-
This file says what a single entry of a configuration does and what is wrong with it. Whether an
entry is good, and what is reported for it otherwise, can be read off the entry and the name of the
field: it does not matter what the field has become by then. A good entry settles what stands under
its key, and a bad one settles nothing. So the problems of a run are those of its entries in their
order, and of a mapping each part of a field takes the entry under its key.
-/

import Mathlib.Data.List.Basic
import Mathlib.Data.List.TakeWhile
import SchemaAssembly.Proofs.Field.Attributes

namespace SchemaAssembly

/-- What the given key settles, after an entry has been applied. -/
def underKey {β : Type} (key : String) (effect : Json → β → β) (entry : String × Json)
    (before : β) : β :=
  if entry.1 = key then effect entry.2 before else before

/-! ### The entries of a mapping for an argument -/

namespace Argument

theorem ext {first second : Argument} (sameName : first.name = second.name)
    (sameType : first.type? = second.type?) (sameDefault : first.default? = second.default?)
    (sameDescription : first.description = second.description) : first = second := by
  obtain ⟨name, type?, default?, description⟩ := first
  obtain ⟨rfl, rfl, rfl, rfl⟩ :=
    And.intro sameName (And.intro sameType (And.intro sameDefault sameDescription))
  rfl

/-- The default after a good value under its key has been applied. -/
def defaultAfter (value : Json) (before : Option Constant) : Option Constant :=
  match value with
  | .null => none
  | value => (Constant.ofJson value).toOption.or before

/-- An argument after a good entry of its configuration has been applied. -/
def afterSetting (argument : Argument) (entry : String × Json) : Argument where
  name := argument.name
  type? := underKey "type" Attributes.typeAfter entry argument.type?
  default? := underKey "defaultValue" defaultAfter entry argument.default?
  description := underKey "description" Attributes.descriptionAfter entry argument.description

/-- Why an entry of a mapping for an argument is refused, if it is. A type has to be a text, a
description a text or null, and a default needs a constant. -/
def refusal? : String × Json → Option String
  | ("type", .text _) => none
  | ("type", _) => some "expected a type string"
  | ("defaultValue", value) =>
    match Constant.ofJson value with
    | .ok _ => none
    | .error key => some (Problem.quote key ++ " is not a valid input field name")
  | ("description", .text _) | ("description", .null) => none
  | ("description", _) => some "expected a string"
  | _ => none

/-- The problem of an entry of a mapping for an argument, if it is refused. -/
def settingProblem? (place : String) (entry : String × Json) : Option Problem :=
  (refusal? entry).map (.invalidConfigValue place entry.1)

/-- An entry is good or bad whatever the argument is to which it is applied. -/
theorem applyEntry_eq (place : String) (argument : Argument) (entry : String × Json) :
    argument.applyEntry place entry =
      match settingProblem? place entry with
      | none => .ok (argument.afterSetting entry)
      | some problem => .error problem := by
  obtain ⟨key, value⟩ := entry
  by_cases isType : key = "type"
  · subst isType
    cases value <;> rfl
  by_cases isDescription : key = "description"
  · subst isDescription
    cases value <;> rfl
  by_cases isDefault : key = "defaultValue"
  · subst isDefault
    by_cases isNull : value = .null
    · subst isNull
      rfl
    · cases converted : Constant.ofJson value with
      | ok constant =>
        simp [applyEntry, settingProblem?, refusal?, afterSetting, underKey, defaultAfter,
          converted, Except.toOption]
      | error inner => simp [applyEntry, settingProblem?, refusal?, converted]
  simp [applyEntry, settingProblem?, refusal?, afterSetting, underKey, isType, isDefault,
    isDescription]

/-- An argument with what the entries of a mapping say, where they are good. What they do not
mention stays as it is. -/
def updated (argument : Argument) (settings : Json.Settings) : Argument where
  name := argument.name
  type? := settings.effectUnder "type" Attributes.typeAfter argument.type?
  default? := settings.effectUnder "defaultValue" defaultAfter argument.default?
  description := settings.effectUnder "description" Attributes.descriptionAfter argument.description

theorem foldl_afterSetting (argument : Argument) (settings : Json.Settings) :
    settings.members.foldl afterSetting argument = argument.updated settings := by
  have sameName : (settings.members.foldl afterSetting argument).name = argument.name :=
    List.foldlRecOn (motive := fun between : Argument => between.name = argument.name) _ _ rfl
      fun _ soFar _ _ => soFar
  exact ext sameName
    (Keyed.observe_foldl Attributes.typeAfter (fun _ _ => rfl) argument settings)
    (Keyed.observe_foldl defaultAfter (fun _ _ => rfl) argument settings)
    (Keyed.observe_foldl Attributes.descriptionAfter (fun _ _ => rfl) argument settings)

/-- The entries of a mapping before the first one that is refused. -/
def beforeRefusal (settings : Json.Settings) : Json.Settings :=
  ⟨settings.members.takeWhile fun entry => (refusal? entry).isNone,
    ((List.takeWhile_sublist _).map Prod.fst).nodup settings.distinct⟩

/-- Entries are applied up to the first one that is refused, whose problem is reported. -/
theorem applyEntries_eq (place : String) (argument : Argument) (entries : List (String × Json)) :
    argument.applyEntries place entries =
      ((entries.takeWhile fun entry => (refusal? entry).isNone).foldl afterSetting argument,
        entries.findSome? (settingProblem? place)) := by
  induction entries generalizing argument with
  | nil => rfl
  | cons first others inductionHypothesis =>
    rw [applyEntries, applyEntry_eq, List.findSome?_cons]
    cases refused : refusal? first with
    | none =>
      rw [List.takeWhile_cons_of_pos (by rw [refused]; rfl), List.foldl_cons, settingProblem?,
        refused]
      exact inductionHypothesis (argument.afterSetting first)
    | some reason =>
      rw [List.takeWhile_cons_of_neg (by rw [refused]; exact Bool.false_ne_true), settingProblem?,
        refused]
      rfl

/-- What is wrong with a mapping for an argument, if anything is: its first key that is not known,
or else its first entry that is refused. -/
def mappingProblem? (place : String) (settings : Json.Settings) : Option Problem :=
  match settings.keys.find? fun key => !ArgumentConfig.keys.contains key with
  | some key => some (.unrecognizedConfigKey place key (keyList ArgumentConfig.keys))
  | none => settings.members.findSome? (settingProblem? place)

/-- Whether all keys of a mapping for an argument are known. -/
def knowsKeys (settings : Json.Settings) : Bool :=
  settings.keys.all ArgumentConfig.keys.contains

theorem find?_unknown_eq_none_iff {settings : Json.Settings} :
    (settings.keys.find? fun key => !ArgumentConfig.keys.contains key) = none ↔
      knowsKeys settings = true := by
  rw [List.find?_eq_none, knowsKeys, List.all_eq_true]
  simp

/-- A mapping all of whose keys are known takes effect up to its first bad entry, and any other
has no effect. -/
theorem configure_mapping (argument : Argument) (settings : Json.Settings) (field : String) :
    argument.configure (.mapping settings) field =
      (if knowsKeys settings then argument.updated (beforeRefusal settings) else argument,
        mappingProblem? (placeOfArgument argument.name field) settings) := by
  unfold configure mappingProblem?
  dsimp only
  cases unknown : settings.keys.find? fun key => !ArgumentConfig.keys.contains key with
  | some key =>
    have notKnown : ¬knowsKeys settings = true := by
      rw [← find?_unknown_eq_none_iff, unknown]
      exact Option.some_ne_none key
    rw [if_neg notKnown]
  | none =>
    rw [if_pos (find?_unknown_eq_none_iff.mp unknown), ← foldl_afterSetting]
    exact applyEntries_eq _ argument settings.members

theorem mappingProblem?_eq_none_iff {place : String} {settings : Json.Settings} :
    mappingProblem? place settings = none ↔
      knowsKeys settings = true ∧ ∀ entry ∈ settings.members, refusal? entry = none := by
  unfold mappingProblem?
  rw [← find?_unknown_eq_none_iff]
  cases settings.keys.find? fun key => !ArgumentConfig.keys.contains key with
  | some key => exact iff_of_false (Option.some_ne_none _) fun both => nomatch both.1
  | none => simp [settingProblem?]

/-- Where no entry is refused, all of them are applied. -/
theorem beforeRefusal_eq_self {settings : Json.Settings}
    (good : ∀ entry ∈ settings.members, refusal? entry = none) :
    beforeRefusal settings = settings := by
  refine Keyed.ext (List.takeWhile_eq_self_iff.mpr fun entry isEntry => ?_)
  rw [good entry isEntry, Option.isNone_none]

/-! ### The entries of an arguments mapping -/

/-- What is wrong with a configuration for an argument with a valid name, if anything is. -/
def settingsProblem? (place : String) : ArgumentConfig → Option Problem
  | .type _ => none
  | .mapping settings => mappingProblem? place settings

/-- What is wrong with a configuration for the argument of a field under a name, if anything is. -/
def configProblem? (field name : String) (config : ArgumentConfig) : Option Problem :=
  if isName name then settingsProblem? (placeOfArgument name field) config
  else some (invalidName field name)

/-- What is wrong with an entry of an arguments mapping of a field, if anything is. -/
def entryProblem? (field : String) : String × Json → Option Problem
  | (_, .boolean false) => none
  | (name, .text type) => configProblem? field name (.type (.written type))
  | (name, .object members) => configProblem? field name (.mapping (Keyed.ofList members))
  | (name, _) => some (.invalidConfigValue (placeOfField field) "args"
      ("argument " ++ Problem.quote name ++ " must be a type string, a mapping or false"))

end Argument

namespace Field

/-- What is reported for a configuration of an argument does not depend on the argument. -/
theorem configureArgument_snd (field : Field) (name : String) (config : ArgumentConfig) :
    (field.configureArgument name config).2 = Argument.configProblem? field.label name config := by
  unfold Argument.configProblem?
  have ofArgument : ∀ argument : Argument, argument.name = name →
      (argument.configure config field.label).2 =
        Argument.settingsProblem? (placeOfArgument name field.label) config := by
    rintro argument rfl
    cases config with
    | type => rfl
    | mapping settings => rw [argument.configure_mapping, Argument.settingsProblem?]
  cases valid : isName name with
  | false =>
    rw [configureArgument_of_not_isName valid]
    rfl
  | true =>
    rw [if_pos rfl]
    cases found : field.arguments.find? name with
    | some argument =>
      rw [configureArgument_of_find?_eq_some valid found]
      exact ofArgument argument (Keyed.key_of_find?_eq_some found)
    | none =>
      rw [configureArgument_of_find?_eq_none valid found, ← ofArgument (.bare name) rfl,
        Argument.ofConfig]
      rcases (Argument.bare name).configure config field.label with ⟨configured, _ | problem⟩ <;>
        rfl

theorem applyArgument_snd (field : Field) (entry : String × Json) :
    (field.applyArgument entry).2 = (Argument.entryProblem? field.label entry).toList := by
  obtain ⟨name, value⟩ := entry
  cases value with
  | boolean value => cases value <;> rfl
  | text type =>
    have reported := configureArgument_snd field name (.type (.written type))
    exact congrArg Option.toList reported
  | object members =>
    have reported := configureArgument_snd field name (.mapping (Keyed.ofList members))
    exact congrArg Option.toList reported
  | _ => rfl

/-- The problems of an arguments mapping are those of its entries, in their order. -/
theorem applyArguments_snd (field : Field) (settings : Json.Settings) :
    (field.applyArguments settings).2 =
      settings.members.filterMap (Argument.entryProblem? field.label) := by
  rw [applyArguments, snd_applyAll (fun label entry => (Argument.entryProblem? label entry).toList)
    (fun field entry => (becomes_applyArgument field entry).sameLabel) applyArgument_snd]
  exact (List.filterMap_eq_flatMap_toList _ _).symm

end Field

/-! ### The entries of a mapping for a field -/

/-- Why an entry of a mapping for a field is refused, if it is. -/
def FieldConfig.refusal? : String × Json → Option String
  | ("type", .text _) => none
  | ("type", _) => some "expected a type string"
  | ("args", .object _) | ("args", .null) => none
  | ("args", _) => some "expected a mapping of argument names"
  | ("description", .text _) | ("description", .null) => none
  | ("description", _) => some "expected a string"
  | ("resolver", value) | ("defaultResolver", value) =>
    match Target.ofJson value with
    | .ok _ => none
    | .error reason => some reason
  | ("resolverContext", .object _) | ("resolverContext", .null) => none
  | ("resolverContext", _) => some "expected a mapping"
  | _ => none

namespace Field

/-- The problem of an entry that is refused. -/
def refusalProblem (label key reason : String) : Problem :=
  if key = "resolver" ∨ key = "defaultResolver" then .invalidResolverShape label key reason
  else .invalidConfigValue (placeOfField label) key reason

/-- The problems of an entry of a mapping for a field: one if it is refused, and for arguments one
for each of their entries that is bad. -/
def entryProblems (label : String) (entry : String × Json) : List Problem :=
  match FieldConfig.refusal? entry with
  | some reason => [refusalProblem label entry.1 reason]
  | none =>
    match entry with
    | ("args", .object members) =>
      (Keyed.ofList members : Json.Settings).members.filterMap (Argument.entryProblem? label)
    | _ => []

theorem applyEntry_snd (field : Field) (entry : String × Json) :
    (field.applyEntry entry).2 = entryProblems field.label entry := by
  obtain ⟨key, value⟩ := entry
  by_cases isArguments : key = "args"
  · subst isArguments
    cases value with
    | object members => exact applyArguments_snd field _
    | _ => rfl
  by_cases isTarget : key = "resolver" ∨ key = "defaultResolver"
  · rcases isTarget with rfl | rfl <;>
    · cases read : Target.ofJson value <;>
        simp [applyEntry, readTarget, entryProblems, FieldConfig.refusal?, refusalProblem, read]
  by_cases isOther : key = "type" ∨ key = "description" ∨ key = "resolverContext"
  · rcases isOther with rfl | rfl | rfl <;> cases value <;> rfl
  rw [not_or] at isTarget
  rw [not_or, not_or] at isOther
  simp [applyEntry, entryProblems, FieldConfig.refusal?, isArguments, isTarget, isOther]

/-! ### Arguments and attributes apart -/

/-- A field with other attributes. -/
def withAttributes (field : Field) (attributes : Attributes) : Field :=
  { field with
    type? := attributes.type?
    description := attributes.description
    resolver := attributes.resolver
    defaultResolver := attributes.defaultResolver
    context := attributes.context }

theorem configureArgument_withAttributes (field : Field) (attributes : Attributes) (name : String)
    (config : ArgumentConfig) :
    ((field.withAttributes attributes).configureArgument name config).1 =
      (field.configureArgument name config).1.withAttributes attributes := by
  cases valid : isName name with
  | false => rw [configureArgument_of_not_isName valid, configureArgument_of_not_isName valid]
  | true =>
    cases found : field.arguments.find? name with
    | some argument =>
      have same : (field.withAttributes attributes).arguments.find? name = some argument := found
      rw [configureArgument_of_find?_eq_some valid found,
        configureArgument_of_find?_eq_some valid same]
      rfl
    | none =>
      have same : (field.withAttributes attributes).arguments.find? name = none := found
      have sameLabel : (field.withAttributes attributes).label = field.label := rfl
      rw [configureArgument_of_find?_eq_none valid found,
        configureArgument_of_find?_eq_none valid same, sameLabel]
      cases Argument.ofConfig name config field.label <;> rfl

theorem applyArgument_withAttributes (field : Field) (attributes : Attributes)
    (entry : String × Json) :
    ((field.withAttributes attributes).applyArgument entry).1 =
      (field.applyArgument entry).1.withAttributes attributes := by
  unfold applyArgument
  split
  · rfl
  · exact configureArgument_withAttributes field attributes _ _
  · exact configureArgument_withAttributes field attributes _ _
  · rfl

/-- Arguments are configured in the same way whatever the attributes of the field are. -/
theorem applyArguments_withAttributes (field : Field) (attributes : Attributes)
    (settings : Json.Settings) :
    ((field.withAttributes attributes).applyArguments settings).1 =
      (field.applyArguments settings).1.withAttributes attributes := by
  rw [applyArguments, applyArguments, fst_applyAll, fst_applyAll]
  exact List.foldl_hom (withAttributes · attributes) fun between entry =>
    applyArgument_withAttributes between attributes entry

/-- The field after the value for its arguments has been applied. Only an object has an effect. -/
def takeArguments (value : Json) (field : Field) : Field :=
  match value with
  | .object members => (field.applyArguments (Keyed.ofList members)).1
  | _ => field

theorem takeArguments_withAttributes (field : Field) (attributes : Attributes) (value : Json) :
    (field.withAttributes attributes).takeArguments value =
      (field.takeArguments value).withAttributes attributes := by
  unfold takeArguments
  split
  · exact applyArguments_withAttributes field attributes _
  · rfl

/-- An entry changes the arguments or the attributes, and neither depends on the other. -/
theorem applyEntry_fst (field : Field) (entry : String × Json) :
    (field.applyEntry entry).1 =
      (underKey "args" takeArguments entry field).withAttributes
        (field.attributes.afterEntry entry) := by
  rw [← attributes_applyEntry]
  unfold underKey
  split
  · next isArguments =>
    obtain ⟨key, value⟩ := entry
    subst isArguments
    cases value <;> rfl
  · next notArguments =>
    unfold applyEntry
    split
    case h_3 | h_4 | h_5 => exact absurd rfl notArguments
    case h_9 | h_10 => split <;> rfl
    all_goals rfl

/-- What a mapping makes of a field: each part is settled by the entry under its key, and it does
not matter where this stands. The arguments are observed with the attributes kept as they were at
first. -/
theorem applyAll_fst (field : Field) (settings : Json.Settings) :
    (applyAll applyEntry field settings.members).1 =
      (settings.effectUnder "args" takeArguments field).withAttributes
        (field.attributes.afterSettings settings) := by
  have ofArguments : (applyAll applyEntry field settings.members).1.withAttributes
      field.attributes = settings.effectUnder "args" takeArguments field := by
    refine observe_applyAll (fun between => between.withAttributes field.attributes)
      takeArguments (fun between entry => ?_) field settings
    rw [applyEntry_fst, takeArguments_withAttributes]
    unfold underKey
    split <;> rfl
  rw [← ofArguments, ← attributes_applyAll]
  rfl

/-- What a mapping all of whose keys are known makes of a field, and what is reported for it. -/
theorem configure_mapping_of_known {settings : Json.Settings}
    (known : settings.keys.all FieldConfig.keys.contains = true) (field : Field) :
    field.configure (.mapping settings) =
      ((settings.effectUnder "args" takeArguments field).withAttributes
          (field.attributes.afterSettings settings),
        settings.members.flatMap (entryProblems field.label)) := by
  rw [configure_mapping, if_pos known]
  refine Prod.ext (applyAll_fst field settings) ?_
  exact snd_applyAll entryProblems
    (fun between entry => (becomes_applyEntry between entry).sameLabel) applyEntry_snd field
    settings.members

end Field

end SchemaAssembly
