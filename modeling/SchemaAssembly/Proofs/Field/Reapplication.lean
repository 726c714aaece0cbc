/-
This file proves that a configuration that is applied to a field again changes nothing and meets
the same problems in the same order, however far it got the first time. An entry that has been
applied is settled: it leaves the field as it is when it is applied again. It stays settled while
entries under other keys are applied, because these do not touch what it has written and because
whether it is bad depends on nothing that they touch. So after one run every entry is settled.
-/

import SchemaAssembly.Proofs.Field.Entry
import SchemaAssembly.Proofs.Field.Lookup

namespace SchemaAssembly

/-! ### What an entry settles -/

section UnderKey

variable {β : Type}

/-- An effect that settles at once does so under its key. -/
theorem underKey_self {effect : Json → β → β}
    (again : ∀ value before, effect value (effect value before) = effect value before)
    (key : String) (entry : String × Json) (before : β) :
    underKey key effect entry (underKey key effect entry before) =
      underKey key effect entry before := by
  unfold underKey
  split
  · exact again entry.2 before
  · rfl

/-- Of two entries with different keys at most one has an effect. -/
theorem underKey_comm {first second : String × Json} (different : first.1 ≠ second.1)
    (key : String) (effect : Json → β → β) (before : β) :
    underKey key effect first (underKey key effect second before) =
      underKey key effect second (underKey key effect first before) := by
  unfold underKey
  by_cases ofFirst : first.1 = key
  · have notSecond : second.1 ≠ key := fun ofSecond => different (ofFirst.trans ofSecond.symm)
    rw [if_pos ofFirst, if_neg notSecond, if_neg notSecond, if_pos ofFirst]
  · rw [if_neg ofFirst, if_neg ofFirst]

end UnderKey

namespace Attributes

theorem typeAfter_self (value : Json) (before : Option ConfiguredType) :
    typeAfter value (typeAfter value before) = typeAfter value before := by
  cases value <;> rfl

theorem descriptionAfter_self (value : Json) (before : Option String) :
    descriptionAfter value (descriptionAfter value before) = descriptionAfter value before := by
  cases value <;> rfl

theorem targetAfter_self (value : Json) (before : Option Target) :
    targetAfter value (targetAfter value before) = targetAfter value before := by
  unfold targetAfter
  cases Target.ofJson value <;> rfl

theorem contextAfter_self (value : Json) (before : Mapping String Json) :
    contextAfter value (contextAfter value before) = contextAfter value before := by
  cases value with
  | object members => exact Keyed.insertAll_insertAll_self before _
  | _ => rfl

theorem afterEntry_self (before : Attributes) (entry : String × Json) :
    (before.afterEntry entry).afterEntry entry = before.afterEntry entry :=
  Attributes.ext (underKey_self typeAfter_self "type" entry _)
    (underKey_self descriptionAfter_self "description" entry _)
    (underKey_self targetAfter_self "resolver" entry _)
    (underKey_self targetAfter_self "defaultResolver" entry _)
    (underKey_self contextAfter_self "resolverContext" entry _)

/-- Entries under different keys settle different attributes, so their order does not matter. -/
theorem afterEntry_comm (before : Attributes) {first second : String × Json}
    (different : first.1 ≠ second.1) :
    (before.afterEntry second).afterEntry first = (before.afterEntry first).afterEntry second :=
  Attributes.ext (underKey_comm different "type" typeAfter _)
    (underKey_comm different "description" descriptionAfter _)
    (underKey_comm different "resolver" targetAfter _)
    (underKey_comm different "defaultResolver" targetAfter _)
    (underKey_comm different "resolverContext" contextAfter _)

end Attributes

/-! ### The entries for one argument -/

namespace Argument

theorem defaultAfter_self (value : Json) (before : Option Constant) :
    defaultAfter value (defaultAfter value before) = defaultAfter value before := by
  unfold defaultAfter
  cases value with
  | null => rfl
  | _ => exact Option.or_assoc.symm.trans (congrArg (Option.or · before) Option.or_self)

/-- Updating an argument twice is updating it once. -/
theorem updated_self (argument : Argument) (settings : Json.Settings) :
    (argument.updated settings).updated settings = argument.updated settings :=
  Argument.ext rfl (settings.effectUnder_self "type" Attributes.typeAfter_self _)
    (settings.effectUnder_self "defaultValue" defaultAfter_self _)
    (settings.effectUnder_self "description" Attributes.descriptionAfter_self _)

/-- An argument to which a configuration is applied again stays as it is, at the same problem. -/
theorem configure_self (argument : Argument) (config : ArgumentConfig) (field : String) :
    (argument.configure config field).1.configure config field =
      argument.configure config field := by
  cases config with
  | type => rfl
  | mapping settings =>
    rw [argument.configure_mapping]
    split
    · next known =>
      rw [configure_mapping, if_pos known, updated_self]
      rfl
    · next unknown => rw [configure_mapping, if_neg unknown]

end Argument

namespace Field

/-! ### Entries that are settled -/

/-- What makes a run of entries repeatable: an entry that is applied again changes nothing and
meets the same problems, and entries under other keys do not alter that. -/
structure Settles (step : Field → String × Json → Outcome) : Prop where
  again : ∀ field entry, step (step field entry).1 entry = step field entry
  kept : ∀ field entry other problems, entry.1 ≠ other.1 → step field entry = (field, problems) →
    step (step field other).1 entry = ((step field other).1, problems)

section Settles

variable {step : Field → String × Json → Outcome}

/-- What an entry has settled is not unsettled by entries under other keys. -/
theorem Settles.kept_applyAll (settles : Settles step) {field : Field} {entry : String × Json}
    {problems : List Problem} {others : List (String × Json)}
    (isNew : entry.1 ∉ others.map Prod.fst) (settled : step field entry = (field, problems)) :
    step (applyAll step field others).1 entry = ((applyAll step field others).1, problems) := by
  induction others generalizing field with
  | nil => exact settled
  | cons first others inductionHypothesis =>
    rw [List.map_cons, List.mem_cons, not_or] at isNew
    rw [applyAll_cons]
    exact inductionHypothesis isNew.2 (settles.kept field entry first problems isNew.1 settled)

/-- A run of entries that is repeated changes nothing and meets the same problems. -/
theorem Settles.applyAll_self (settles : Settles step) (field : Field)
    {entries : List (String × Json)} (distinct : (entries.map Prod.fst).Nodup) :
    applyAll step (applyAll step field entries).1 entries = applyAll step field entries := by
  induction entries generalizing field with
  | nil => rfl
  | cons first others inductionHypothesis =>
    rw [List.map_cons, List.nodup_cons] at distinct
    have settled := settles.kept_applyAll distinct.1 (settles.again field first)
    have repeated := inductionHypothesis (step field first).1 distinct.2
    rw [applyAll_cons field]
    dsimp only
    rw [applyAll_cons, settled]
    dsimp only
    rw [repeated]

end Settles

/-! ### The entries of an arguments mapping -/

theorem putArgument_eq_self {field : Field} {argument : Argument}
    (found : field.arguments.find? argument.name = some argument) :
    field.putArgument argument = field := by
  rw [putArgument, Keyed.insert_eq_self found]

/-- An argument that its configuration leaves as it is can be configured where it stands. -/
theorem configureArgument_putArgument {field : Field} {name : String} {config : ArgumentConfig}
    {argument : Argument} {problem : Option Problem} (valid : isName name = true)
    (isNamed : argument.name = name)
    (settled : argument.configure config field.label = (argument, problem)) :
    (field.putArgument argument).configureArgument name config =
      (field.putArgument argument, problem) := by
  subst isNamed
  have present : (field.putArgument argument).arguments.find? argument.name = some argument :=
    Keyed.find?_insert_self field.arguments argument
  have sameLabel : (field.putArgument argument).label = field.label := rfl
  rw [configureArgument_of_find?_eq_some valid present, sameLabel, settled,
    putArgument_eq_self present]

/-- Configuring an argument again has no further effect, and meets the same problem. -/
theorem configureArgument_self (field : Field) (name : String) (config : ArgumentConfig) :
    (field.configureArgument name config).1.configureArgument name config =
      field.configureArgument name config := by
  cases valid : isName name with
  | false =>
    have refused : field.configureArgument name config =
        (field, some (Argument.invalidName field.label name)) :=
      configureArgument_of_not_isName valid field config
    rw [refused, refused]
  | true =>
    cases found : field.arguments.find? name with
    | some argument =>
      rw [configureArgument_of_find?_eq_some valid found]
      refine configureArgument_putArgument valid ?_ (argument.configure_self config field.label)
      rw [argument.name_configure, Keyed.key_of_find?_eq_some found]
    | none =>
      have configured := configureArgument_of_find?_eq_none valid found config
      cases made : Argument.ofConfig name config field.label with
      | ok argument =>
        rw [made] at configured
        rw [configured]
        refine configureArgument_putArgument valid (Argument.name_of_ofConfig made) ?_
        have settled := (Argument.bare name).configure_self config field.label
        rwa [Argument.ofConfig_eq_ok_iff.mp made] at settled
      | error problem =>
        rw [made] at configured
        rw [configured, configured]

/-- An entry of an arguments mapping has no further effect, and meets the same problems again. -/
theorem applyArgument_self (field : Field) (entry : String × Json) :
    (field.applyArgument entry).1.applyArgument entry = field.applyArgument entry := by
  obtain ⟨name, value⟩ := entry
  have configured : ∀ config,
      (field.configureArgument name config).1.configureArgument name config =
        field.configureArgument name config := field.configureArgument_self name
  cases value with
  | boolean value =>
    cases value with
    | true => rfl
    | false =>
      have erased : (field.arguments.erase name).erase name = field.arguments.erase name :=
        Keyed.erase_eq_self (field.arguments.find?_erase_self name)
      show ({ field with arguments := (field.arguments.erase name).erase name }, []) = _
      rw [erased]
      rfl
  | text type =>
    have again := configured (.type (.written type))
    exact congrArg (fun outcome : Field × Option Problem => (outcome.1, outcome.2.toList)) again
  | object members =>
    have again := configured (.mapping (Keyed.ofList members))
    exact congrArg (fun outcome : Field × Option Problem => (outcome.1, outcome.2.toList)) again
  | _ => rfl

theorem configureArgument_fst_eq_self (field : Field) (name : String) (config : ArgumentConfig)
    (same : (field.configureArgument name config).1.arguments.find? name =
      field.arguments.find? name) : (field.configureArgument name config).1 = field := by
  rcases configureArgument_fst field name config with unchanged | ⟨argument, rfl, -, put⟩
  · exact unchanged
  · have present : (field.putArgument argument).arguments.find? argument.name = some argument :=
      Keyed.find?_insert_self field.arguments argument
    rw [put] at same ⊢
    exact putArgument_eq_self (same.symm.trans present)

/-- An entry that leaves what is found under its name as it is changes nothing at all. -/
theorem applyArgument_fst_eq_self {field : Field} {entry : String × Json}
    (same : (field.applyArgument entry).1.arguments.find? entry.1 =
      field.arguments.find? entry.1) : (field.applyArgument entry).1 = field := by
  obtain ⟨name, value⟩ := entry
  cases value with
  | boolean value =>
    cases value with
    | true => rfl
    | false =>
      have absent : field.arguments.find? name = none :=
        same.symm.trans (field.arguments.find?_erase_self name)
      show field.removeArgument name = field
      rw [removeArgument, Keyed.erase_eq_self absent]
  | text type => exact configureArgument_fst_eq_self field name (.type (.written type)) same
  | object members =>
    exact configureArgument_fst_eq_self field name (.mapping (Keyed.ofList members)) same
  | _ => rfl

/-- Whether an entry is settled depends on what is found under its name alone. -/
theorem applyArgument_of_settled {first second : Field} {entry : String × Json}
    {problems : List Problem} (settled : first.applyArgument entry = (first, problems))
    (sameLabel : first.label = second.label)
    (sameFound : first.arguments.find? entry.1 = second.arguments.find? entry.1) :
    second.applyArgument entry = (second, problems) := by
  have ofFirst := find?_applyArgument first entry entry.1
  rw [settled, if_pos rfl, sameLabel, sameFound] at ofFirst
  have same : (second.applyArgument entry).1.arguments.find? entry.1 =
      second.arguments.find? entry.1 := by
    rw [find?_applyArgument, if_pos rfl, ← ofFirst]
  refine Prod.ext (applyArgument_fst_eq_self same) ?_
  rw [applyArgument_snd, ← sameLabel, ← applyArgument_snd, settled]

/-- The entries of an arguments mapping settle one argument each. -/
theorem settles_applyArgument : Settles applyArgument where
  again := applyArgument_self
  kept field entry other problems different settled := by
    have untouched := find?_applyArgument field other entry.1
    rw [if_neg different.symm] at untouched
    exact applyArgument_of_settled settled (becomes_applyArgument field other).sameLabel.symm
      untouched.symm

theorem applyArguments_self (field : Field) (settings : Json.Settings) :
    (field.applyArguments settings).1.applyArguments settings = field.applyArguments settings :=
  settles_applyArgument.applyAll_self field settings.distinct

/-! ### The entries of a configuration -/

theorem takeArguments_self (value : Json) (field : Field) :
    (field.takeArguments value).takeArguments value = field.takeArguments value := by
  cases value with
  | object members => exact congrArg Prod.fst (applyArguments_self field (Keyed.ofList members))
  | _ => rfl

theorem underKey_takeArguments_withAttributes (entry : String × Json) (field : Field)
    (attributes : Attributes) :
    underKey "args" takeArguments entry (field.withAttributes attributes) =
      (underKey "args" takeArguments entry field).withAttributes attributes := by
  unfold underKey
  split
  · exact takeArguments_withAttributes field attributes entry.2
  · rfl

theorem applyEntry_self (field : Field) (entry : String × Json) :
    (field.applyEntry entry).1.applyEntry entry = field.applyEntry entry := by
  refine Prod.ext ?_ ?_
  · rw [applyEntry_fst, applyEntry_fst field, underKey_takeArguments_withAttributes,
      underKey_self takeArguments_self]
    exact congrArg (withAttributes _) (field.attributes.afterEntry_self entry)
  · rw [applyEntry_snd, applyEntry_snd, (becomes_applyEntry field entry).sameLabel]

/-- It does not matter for a field which of two entries is applied first. -/
theorem applyEntry_fst_comm (field : Field) {first second : String × Json}
    (different : first.1 ≠ second.1) :
    ((field.applyEntry second).1.applyEntry first).1 =
      ((field.applyEntry first).1.applyEntry second).1 := by
  rw [applyEntry_fst, applyEntry_fst field second, applyEntry_fst (field.applyEntry first).1,
    applyEntry_fst field first, underKey_takeArguments_withAttributes,
    underKey_takeArguments_withAttributes, underKey_comm different]
  exact congrArg (withAttributes _) (field.attributes.afterEntry_comm different)

theorem applyEntry_kept {field : Field} {entry other : String × Json} {problems : List Problem}
    (different : entry.1 ≠ other.1) (settled : field.applyEntry entry = (field, problems)) :
    (field.applyEntry other).1.applyEntry entry = ((field.applyEntry other).1, problems) := by
  refine Prod.ext ?_ ?_
  · rw [applyEntry_fst_comm field different, settled]
  · rw [applyEntry_snd, (becomes_applyEntry field other).sameLabel, ← applyEntry_snd, settled]

/-- The entries of a configuration settle what stands under their keys. -/
theorem settles_applyEntry : Settles applyEntry where
  again := applyEntry_self
  kept _ _ _ _ := applyEntry_kept

/-! ### Configurations -/

/-- Merging the same field twice is merging it once. -/
theorem merge_merge_self (field other : Field) :
    (field.merge other).merge other = field.merge other := by
  unfold merge
  rw [Keyed.insertAll_insertAll_self]

/-- A configuration that is applied again, whether it is good or bad, leaves the whole field as it
is and meets the same problems in the same order. -/
theorem configure_configure_self (field : Field) (config : FieldConfig) :
    (field.configure config).1.configure config = field.configure config := by
  cases config with
  | type type => rfl
  | template other => exact Prod.ext (merge_merge_self field other) rfl
  | mapping settings =>
    rw [configure_mapping field]
    split
    · next known =>
      rw [configure_mapping, if_pos known]
      exact settles_applyEntry.applyAll_self field settings.distinct
    · next unknown => rw [configure_mapping, if_neg unknown]

end Field

end SchemaAssembly
