/-
This file proves that the order of the entries of a configuration does not matter, though it is
applied entry by entry and may fail on the way. Each part of a field is settled by the one entry
under its key, wherever this stands, and what is reported for an entry depends on nothing that
another one does. The mapping for an argument is applied up to its first bad entry, so there the
order matters where it fails, and only there.
-/

import SchemaAssembly.Proofs.Field.PartialEffect

namespace SchemaAssembly

variable {first second : Json.Settings}

theorem all_keys_perm (perm : first.members.Perm second.members) (known : String → Bool) :
    first.keys.all known = second.keys.all known :=
  (perm.map Prod.fst).all_eq

namespace Argument

theorem updated_perm (perm : first.members.Perm second.members) (argument : Argument) :
    argument.updated first = argument.updated second :=
  Argument.ext rfl (Keyed.effectUnder_perm perm "type" _ _)
    (Keyed.effectUnder_perm perm "defaultValue" _ _)
    (Keyed.effectUnder_perm perm "description" _ _)

theorem mappingProblem?_perm (perm : first.members.Perm second.members) (place : String) :
    mappingProblem? place first = none ↔ mappingProblem? place second = none := by
  have sameKnown : knowsKeys first = knowsKeys second := all_keys_perm perm _
  simp only [mappingProblem?_eq_none_iff, sameKnown, perm.mem_iff]

/-- A mapping that is good makes the same of an argument in whatever order its entries stand. -/
theorem configure_mapping_perm (perm : first.members.Perm second.members) (argument : Argument)
    (field : String) :
    ((argument.configure (.mapping first) field).2 = none ↔
      (argument.configure (.mapping second) field).2 = none) ∧
    ((argument.configure (.mapping first) field).2 = none →
      (argument.configure (.mapping first) field).1 =
        (argument.configure (.mapping second) field).1) := by
  have sameSuccess := mappingProblem?_perm perm (placeOfArgument argument.name field)
  have whole : ∀ {settings : Json.Settings},
      mappingProblem? (placeOfArgument argument.name field) settings = none →
      (argument.configure (.mapping settings) field).1 = argument.updated settings := by
    intro settings good
    obtain ⟨known, allGood⟩ := mappingProblem?_eq_none_iff.mp good
    rw [configure_mapping, if_pos known, beforeRefusal_eq_self allGood]
  have reported : ∀ settings, (argument.configure (.mapping settings) field).2 =
      mappingProblem? (placeOfArgument argument.name field) settings := by
    intro settings
    rw [configure_mapping]
  rw [reported, reported]
  refine ⟨sameSuccess, fun good => ?_⟩
  rw [whole good, whole (sameSuccess.mp good), updated_perm perm]

end Argument

theorem Attributes.afterSettings_perm (perm : first.members.Perm second.members)
    (before : Attributes) : before.afterSettings first = before.afterSettings second :=
  Attributes.ext (Keyed.effectUnder_perm perm "type" _ _)
    (Keyed.effectUnder_perm perm "description" _ _)
    (Keyed.effectUnder_perm perm "resolver" _ _)
    (Keyed.effectUnder_perm perm "defaultResolver" _ _)
    (Keyed.effectUnder_perm perm "resolverContext" _ _)

namespace Field

theorem unknownKeys_perm (perm : first.members.Perm second.members) (field : Field) :
    (field.unknownKeys first).Perm (field.unknownKeys second) :=
  ((perm.map Prod.fst).filter _).map _

/-- In whatever order its entries stand, a mapping makes the same of a field, good or bad, and its
problems are the same but for their order. -/
theorem configure_mapping_perm (perm : first.members.Perm second.members) (field : Field) :
    (field.configure (.mapping first)).1 = (field.configure (.mapping second)).1 ∧
    (field.configure (.mapping first)).2.Perm (field.configure (.mapping second)).2 := by
  have sameKnown := all_keys_perm perm FieldConfig.keys.contains
  by_cases known : first.keys.all FieldConfig.keys.contains = true
  · rw [configure_mapping_of_known known, configure_mapping_of_known (sameKnown ▸ known),
      Keyed.effectUnder_perm perm, Attributes.afterSettings_perm perm]
    exact ⟨rfl, perm.flatMap_right _⟩
  · rw [configure_mapping, configure_mapping, if_neg known, if_neg (sameKnown ▸ known)]
    exact ⟨rfl, unknownKeys_perm perm field⟩

end Field

/-- The order of the entries of a mapping matters neither for a field, of which it makes the same
with the same problems in some order, nor for an argument, as long as it is good. -/
theorem configure_perm (perm : first.members.Perm second.members) :
    (∀ field : Field,
      (field.configure (.mapping first)).1 = (field.configure (.mapping second)).1 ∧
      ((field.configure (.mapping first)).2 = [] ↔ (field.configure (.mapping second)).2 = []) ∧
      (field.configure (.mapping first)).2.Perm (field.configure (.mapping second)).2) ∧
    ∀ (argument : Argument) (field : String),
      ((argument.configure (.mapping first) field).2 = none ↔
        (argument.configure (.mapping second) field).2 = none) ∧
      ((argument.configure (.mapping first) field).2 = none →
        (argument.configure (.mapping first) field).1 =
          (argument.configure (.mapping second) field).1) := by
  refine ⟨fun field => ?_, Argument.configure_mapping_perm perm⟩
  obtain ⟨sameField, sameProblems⟩ := field.configure_mapping_perm perm
  have sameSuccess : (field.configure (.mapping first)).2 = [] ↔
      (field.configure (.mapping second)).2 = [] := by
    rw [← List.length_eq_zero_iff, sameProblems.length_eq, List.length_eq_zero_iff]
  exact ⟨sameField, sameSuccess, sameProblems⟩

/-- The broken settings of a field backwards: the arguments are then configured first, and their
problems come before that of the type. -/
theorem configure_perm_of_brokenSettings :
    (Field.pagedByOffset.configure (.mapping Field.brokenSettings)).1 =
        (Field.pagedByOffset.configure
          (.mapping (Keyed.ofList Field.brokenSettings.members.reverse))).1 ∧
      (Field.pagedByOffset.configure
          (.mapping (Keyed.ofList Field.brokenSettings.members.reverse))).2.map Problem.code =
        [.invalidConfigValue, .unrecognizedConfigKey, .invalidConfigValue] := by
  have perm : Field.brokenSettings.members.Perm
      (Keyed.ofList Field.brokenSettings.members.reverse : Json.Settings).members :=
    (List.reverse_perm Field.brokenSettings.members).symm
  exact ⟨((configure_perm perm).1 Field.pagedByOffset).1, by decide⟩

end SchemaAssembly
