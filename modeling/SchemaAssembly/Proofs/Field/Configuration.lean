/-
This file says what the steps of a configuration do to a field, so that callers need not look into
them: steps that are taken one after the other, the configuration of a single argument under its
name, and the making of a field. What every single step keeps, the whole of them keeps.
-/

import SchemaAssembly.Field.Configuration
import SchemaAssembly.Proofs.Keyed
import SchemaAssembly.Proofs.Problem

namespace SchemaAssembly

/-! ### Arguments keep their name -/

namespace Argument

theorem name_applyEntry {place : String} {argument next : Argument} {entry : String × Json}
    (applied : argument.applyEntry place entry = .ok next) : next.name = argument.name := by
  unfold applyEntry at applied
  split at applied
  case h_4 =>
    split at applied
    · cases applied
      rfl
    · cases applied
  all_goals cases applied <;> rfl

theorem name_applyEntries (place : String) (argument : Argument) (entries : List (String × Json)) :
    (argument.applyEntries place entries).1.name = argument.name := by
  induction entries generalizing argument with
  | nil => rfl
  | cons entry rest inductionHypothesis =>
    rw [applyEntries]
    split
    · next next applied => rw [inductionHypothesis, name_applyEntry applied]
    · rfl

/-- However an argument is configured, it keeps its name. -/
theorem name_configure (argument : Argument) (config : ArgumentConfig) (field : String) :
    (argument.configure config field).1.name = argument.name := by
  unfold configure
  dsimp only
  split
  · rfl
  · split
    · rfl
    · exact name_applyEntries _ argument _

theorem ofConfig_eq_ok_iff {name field : String} {config : ArgumentConfig} {argument : Argument} :
    ofConfig name config field = .ok argument ↔
      (bare name).configure config field = (argument, none) := by
  unfold ofConfig
  rcases (bare name).configure config field with ⟨configured, _ | problem⟩
  · simp
  · simp

theorem name_of_ofConfig {name field : String} {config : ArgumentConfig} {argument : Argument}
    (made : ofConfig name config field = .ok argument) : argument.name = name := by
  have kept := name_configure (bare name) config field
  rw [ofConfig_eq_ok_iff.mp made] at kept
  exact kept

end Argument

namespace Field

/-! ### Steps one after the other -/

section Steps

variable {α : Type} {step : Field → α → Outcome}

theorem foldl_outcome (steps : List α) (field : Field) (problems : List Problem) :
    steps.foldl
        (fun (before : Outcome) member =>
          let after := step before.1 member
          (after.1, before.2 ++ after.2))
        (field, problems) =
      ((applyAll step field steps).1, problems ++ (applyAll step field steps).2) := by
  induction steps generalizing field problems with
  | nil => exact Prod.ext rfl (List.append_nil problems).symm
  | cons first others inductionHypothesis =>
    rw [applyAll, List.foldl_cons, List.foldl_cons]
    dsimp only
    rw [inductionHypothesis, inductionHypothesis, List.nil_append, List.append_assoc]

theorem applyAll_nil (field : Field) : applyAll step field [] = (field, []) := rfl

theorem applyAll_cons (field : Field) (first : α) (others : List α) :
    applyAll step field (first :: others) =
      ((applyAll step (step field first).1 others).1,
        (step field first).2 ++ (applyAll step (step field first).1 others).2) := by
  rw [applyAll, List.foldl_cons]
  exact foldl_outcome others (step field first).1 ([] ++ (step field first).2)

theorem applyAll_invariant_of_mem {invariant : Field → Prop} {steps : List α}
    (kept : ∀ field, ∀ member ∈ steps, invariant field → invariant (step field member).1)
    {field : Field} (holds : invariant field) : invariant (applyAll step field steps).1 := by
  induction steps generalizing field with
  | nil => exact holds
  | cons first others inductionHypothesis =>
    rw [applyAll_cons]
    exact inductionHypothesis
      (fun between member isOther => kept between member (List.mem_cons_of_mem first isOther))
      (kept field first List.mem_cons_self holds)

/-- What each step keeps, all of them keep. -/
theorem applyAll_invariant {invariant : Field → Prop}
    (kept : ∀ field member, invariant field → invariant (step field member).1) {field : Field}
    (holds : invariant field) (steps : List α) : invariant (applyAll step field steps).1 :=
  applyAll_invariant_of_mem (fun between member _ => kept between member) holds

/-- Where no problem was met, every step was taken without one. -/
theorem exists_of_applyAll_eq_nil {field : Field} {steps : List α}
    (noProblems : (applyAll step field steps).2 = []) {member : α} (isStep : member ∈ steps) :
    ∃ between, (step between member).2 = [] := by
  induction steps generalizing field with
  | nil => cases isStep
  | cons first others inductionHypothesis =>
    rw [applyAll_cons, List.append_eq_nil_iff] at noProblems
    rcases List.mem_cons.mp isStep with rfl | isOther
    · exact ⟨field, noProblems.1⟩
    · exact inductionHypothesis noProblems.2 isOther

theorem fst_applyAll (field : Field) (steps : List α) :
    (applyAll step field steps).1 =
      steps.foldl (fun before member => (step before member).1) field := by
  induction steps generalizing field with
  | nil => rfl
  | cons first others inductionHypothesis =>
    rw [applyAll_cons, List.foldl_cons]
    exact inductionHypothesis (step field first).1

/-- Where the problems of each step depend on nothing but the text under which the field is kept,
so do those of all steps, one after the other. -/
theorem snd_applyAll (problems : String → α → List Problem)
    (sameLabel : ∀ field member, (step field member).1.label = field.label)
    (single : ∀ field member, (step field member).2 = problems field.label member)
    (field : Field) (steps : List α) :
    (applyAll step field steps).2 = steps.flatMap (problems field.label) := by
  induction steps generalizing field with
  | nil => rfl
  | cons first others inductionHypothesis =>
    rw [applyAll_cons, List.flatMap_cons]
    dsimp only
    rw [inductionHypothesis, sameLabel, single]

/-- Of the steps for the entries of a mapping, only the one for the wanted key has an effect on what
is observed. -/
theorem observe_applyAll {β : Type} {step : Field → String × Json → Outcome}
    (observe : Field → β) {wanted : String} (effect : Json → β → β)
    (single : ∀ field entry, observe (step field entry).1 =
      if entry.1 = wanted then effect entry.2 (observe field) else observe field)
    (field : Field) (settings : Json.Settings) :
    observe (applyAll step field settings.members).1 =
      settings.effectUnder wanted effect (observe field) := by
  rw [fst_applyAll]
  exact Keyed.observe_foldl effect single field settings

end Steps

/-! ### A single argument -/

theorem configureArgument_of_not_isName {name : String} (invalid : isName name = false)
    (field : Field) (config : ArgumentConfig) :
    field.configureArgument name config =
      (field, some (Argument.invalidName field.label name)) := by
  rw [configureArgument, invalid]
  rfl

theorem configureArgument_of_find?_eq_some {field : Field} {name : String} {argument : Argument}
    (valid : isName name = true) (found : field.arguments.find? name = some argument)
    (config : ArgumentConfig) :
    field.configureArgument name config =
      (field.putArgument (argument.configure config field.label).1,
        (argument.configure config field.label).2) := by
  rw [configureArgument, valid, found]
  rfl

theorem configureArgument_of_find?_eq_none {field : Field} {name : String}
    (valid : isName name = true) (absent : field.arguments.find? name = none)
    (config : ArgumentConfig) :
    field.configureArgument name config =
      match Argument.ofConfig name config field.label with
      | .ok argument => (field.putArgument argument, none)
      | .error problem => (field, some problem) := by
  rw [configureArgument, valid, absent]
  rfl

/-- Configuring an argument leaves the field as it is, or puts an argument into it that has the
name under which it is configured; this name is valid. -/
theorem configureArgument_fst (field : Field) (name : String) (config : ArgumentConfig) :
    (field.configureArgument name config).1 = field ∨
      ∃ argument, argument.name = name ∧ isName name = true ∧
        (field.configureArgument name config).1 = field.putArgument argument := by
  cases valid : isName name with
  | false =>
    rw [configureArgument_of_not_isName valid]
    exact Or.inl rfl
  | true =>
    cases found : field.arguments.find? name with
    | some argument =>
      rw [configureArgument_of_find?_eq_some valid found]
      refine Or.inr ⟨_, ?_, rfl, rfl⟩
      rw [Argument.name_configure, Keyed.key_of_find?_eq_some found]
    | none =>
      rw [configureArgument_of_find?_eq_none valid found]
      split
      · next argument made => exact Or.inr ⟨argument, Argument.name_of_ofConfig made, rfl, rfl⟩
      · exact Or.inl rfl

theorem applyArgument_object (field : Field) (name : String) (members : List (String × Json)) :
    field.applyArgument (name, .object members) =
      ((field.configureArgument name (.mapping (Keyed.ofList members))).1,
        (field.configureArgument name (.mapping (Keyed.ofList members))).2.toList) := rfl

/-- A mapping is applied entry by entry if all its keys are known; otherwise it is refused. -/
theorem configure_mapping (field : Field) (settings : Json.Settings) :
    field.configure (.mapping settings) =
      if settings.keys.all FieldConfig.keys.contains then
        applyAll applyEntry field settings.members
      else (field, field.unknownKeys settings) := by
  have known : settings.keys.all FieldConfig.keys.contains = true ↔
      field.unknownKeys settings = [] := by
    rw [unknownKeys, List.map_eq_nil_iff, List.filter_eq_nil_iff, List.all_eq_true]
    simp
  unfold configure
  dsimp only
  split
  · next noUnknown => rw [if_pos (known.mpr noUnknown)]
  · next hasUnknown => rw [if_neg fun allKnown => hasUnknown (known.mp allKnown)]

/-- A mapping that meets no problem is applied entry by entry. -/
theorem applyAll_of_configure {field configured : Field} {settings : Json.Settings}
    (noProblems : field.configure (.mapping settings) = (configured, [])) :
    applyAll applyEntry field settings.members = (configured, []) := by
  unfold configure at noProblems
  dsimp only at noProblems
  split at noProblems
  · exact noProblems
  · next hasUnknown => exact absurd (congrArg Prod.snd noProblems) hasUnknown

/-! ### Making a field -/

/-- A field with nothing but its name and its arguments. -/
def unconfigured (definition : String) (name : Name) (arguments : Keyed Argument.name)
    (wiring : Wiring) : Field :=
  ⟨name, definition, arguments, none, none, none, none, ∅, wiring⟩

/-- A field is made if its definition can be read and its configuration meets no problem. -/
theorem make_eq_ok_iff {definition : String} {config : FieldConfig} {wiring : Wiring}
    {field : Field} :
    make definition config wiring = .ok field ↔
      ∃ name arguments, nameAndArguments definition = .ok (name, arguments) ∧
        (unconfigured definition name arguments wiring).configure config = (field, []) := by
  unfold make
  cases nameAndArguments definition with
  | error problem => simp
  | ok read =>
    obtain ⟨name, arguments⟩ := read
    dsimp only
    rw [Failure.settle_eq_ok_iff]
    constructor
    · rintro ⟨noProblems, rfl⟩
      exact ⟨name, arguments, rfl, Prod.ext rfl noProblems⟩
    · rintro ⟨_, _, ⟨⟩, configured⟩
      rw [unconfigured] at configured
      rw [configured]
      exact ⟨rfl, rfl⟩

end Field

end SchemaAssembly
