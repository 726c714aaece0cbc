/-
This file says what a configuration that fails has done by then. A mapping with a key that is not
known does nothing. Any other has the effect of its good entries, as if the bad ones were not
there, and so has the mapping of arguments in it. The one exception is a mapping for an argument
that is there: its keys are checked first, but its entries are applied up to the first bad one.
-/

import SchemaAssembly.Proofs.Field.ArgumentSettings

namespace SchemaAssembly

/-! ### Mappings that stop halfway -/

namespace Argument

/-- Whether the mapping for the argument with the given name fails on a value: its keys are all
known, but some entry is refused. -/
structure StopsHalfway (name : String) (settings : Json.Settings) : Prop where
  named : isName name = true
  known : knowsKeys settings = true
  refused : ∃ entry ∈ settings.members, refusal? entry ≠ none

/-- Where the name is valid and the keys are known, it is a value that is bad. -/
theorem stopsHalfway_iff (field : String) {name : String} {members : List (String × Json)}
    (named : isName name = true) (known : knowsKeys (Keyed.ofList members) = true) :
    StopsHalfway name (Keyed.ofList members) ↔
      entryProblem? field (name, .object members) ≠ none := by
  show _ ↔ configProblem? field name (.mapping (Keyed.ofList members)) ≠ none
  rw [configProblem?, if_pos named, settingsProblem?, Ne, mappingProblem?_eq_none_iff]
  constructor
  · rintro ⟨-, -, entry, isEntry, refused⟩ good
    exact refused (good.2 entry isEntry)
  · intro bad
    refine ⟨named, known, ?_⟩
    by_contra noneRefused
    push Not at noneRefused
    exact bad ⟨known, noneRefused⟩

/-- What comes before the first bad entry is a good mapping. -/
theorem configure_beforeRefusal {settings : Json.Settings} (known : knowsKeys settings = true)
    (argument : Argument) (field : String) :
    argument.configure (.mapping (beforeRefusal settings)) field =
      (argument.updated (beforeRefusal settings), none) := by
  have stillKnown : knowsKeys (beforeRefusal settings) = true := by
    have fewer : (beforeRefusal settings).keys.Sublist settings.keys :=
      (List.takeWhile_sublist _).map Prod.fst
    exact List.all_eq_true.mpr fun key isKey => List.all_eq_true.mp known key (fewer.subset isKey)
  have good : ∀ entry ∈ (beforeRefusal settings).members, refusal? entry = none := by
    intro entry isBefore
    have notRefused := List.mem_takeWhile_imp (p := fun entry => (refusal? entry).isNone) isBefore
    exact Option.isNone_iff_eq_none.mp notRefused
  rw [argument.configure_mapping, if_pos stillKnown, beforeRefusal_eq_self good,
    mappingProblem?_eq_none_iff.mpr ⟨stillKnown, good⟩]

end Argument

namespace Field

/-! ### Arguments -/

/-- How the arguments of a field come out of a mapping, be its entries good or bad. Those that were
there keep their order and the new ones follow, as far as they are there in the end. A good entry
has its effect. A bad one makes no argument, and it leaves the one that is there as it is, unless
it stops halfway: then the argument is as what comes before the first refusal makes it. -/
structure SalvagesArguments (settings : Json.Settings) (before after : Field) : Prop where
  goesOn : Keyed.GoesOn settings.keys before.arguments after.arguments
  good : ∀ name value, settings.get? name = some value →
    Argument.entryProblem? before.label (name, value) = none →
    Argument.Takes name value (before.arguments.find? name) (after.arguments.find? name)
  neverMade : ∀ name value, settings.get? name = some value →
    Argument.entryProblem? before.label (name, value) ≠ none →
    before.arguments.find? name = none → after.arguments.find? name = none
  halfway : ∀ name members argument, settings.get? name = some (.object members) →
    Argument.StopsHalfway name (Keyed.ofList members) →
    before.arguments.find? name = some argument →
    ∃ reached, after.arguments.find? name = some reached ∧
      argument.configure (.mapping (Argument.beforeRefusal (Keyed.ofList members))) before.label =
        (reached, none)
  otherwise : ∀ name value, settings.get? name = some value →
    Argument.entryProblem? before.label (name, value) ≠ none →
    (∀ members, value = .object members → ¬Argument.StopsHalfway name (Keyed.ofList members)) →
    after.arguments.find? name = before.arguments.find? name

theorem salvagesArguments_applyArguments (field : Field) (settings : Json.Settings) :
    SalvagesArguments settings field (field.applyArguments settings).1 := by
  refine ⟨goesOn_applyArguments field settings, fun name value given =>
    field.takes_applyArguments given, ?_, ?_, ?_⟩
  · intro name value given hasProblem absent
    rw [field.find?_applyArguments_of_bad given hasProblem, absent, Option.map_none]
  · intro name members argument given stops present
    have sameName : argument.name = name := Keyed.key_of_find?_eq_some present
    have hasProblem := (Argument.stopsHalfway_iff field.label stops.named stops.known).mp stops
    refine ⟨_, ?_, Argument.configure_beforeRefusal stops.known argument field.label⟩
    rw [field.find?_applyArguments_of_bad given hasProblem, present, Option.map_some,
      Argument.spared, sameName, if_pos ⟨stops.named, stops.known⟩]
  · intro name value given hasProblem notHalfway
    rw [field.find?_applyArguments_of_bad given hasProblem]
    refine (Option.map_congr fun argument present => ?_).trans Option.map_id'
    have sameName : argument.name = name := Keyed.key_of_find?_eq_some present
    cases value with
    | object members =>
      rw [Argument.spared, sameName, if_neg]
      rintro ⟨named, known⟩
      exact notHalfway members rfl ((Argument.stopsHalfway_iff _ named known).mpr hasProblem)
    | _ => rfl

end Field

/-! ### Attributes -/

/-- How the attributes of a field come out of a mapping, be its entries good or bad. Each of them
takes a good value under its key, and stays where there is none or a bad one. A context is not
replaced but takes the values in. -/
structure Attributes.Salvages (settings : Json.Settings) (before after : Attributes) : Prop where
  type :
    match settings.get? "type" with
    | some (.text type) => after.type? = some (.written type)
    | _ => after.type? = before.type?
  description :
    match settings.get? "description" with
    | some (.text description) => after.description = some description
    | some .null => after.description = none
    | _ => after.description = before.description
  resolver :
    match (settings.get? "resolver").map Target.ofJson with
    | some (.ok target) => after.resolver = target
    | _ => after.resolver = before.resolver
  defaultResolver :
    match (settings.get? "defaultResolver").map Target.ofJson with
    | some (.ok target) => after.defaultResolver = target
    | _ => after.defaultResolver = before.defaultResolver
  context :
    match settings.get? "resolverContext" with
    | some (.object members) =>
      after.context = before.context.insertAll (Keyed.ofList members : Json.Settings).members
    | _ => after.context = before.context

theorem Attributes.salvages_afterSettings (settings : Json.Settings) (before : Attributes) :
    Salvages settings before (before.afterSettings settings) := by
  have target : ∀ key (given : Option Target),
      match (settings.get? key).map Target.ofJson with
      | some (.ok target) => settings.effectUnder key targetAfter given = target
      | _ => settings.effectUnder key targetAfter given = given := by
    intro key given
    unfold Keyed.effectUnder targetAfter
    cases settings.get? key with
    | none => rfl
    | some value =>
      dsimp only [Option.map_some]
      cases Target.ofJson value <;> rfl
  refine ⟨?_, ?_, target "resolver" _, target "defaultResolver" _, ?_⟩
  · unfold afterSettings Keyed.effectUnder
    cases settings.get? "type" with
    | none => rfl
    | some value => cases value <;> rfl
  · unfold afterSettings Keyed.effectUnder
    cases settings.get? "description" with
    | none => rfl
    | some value => cases value <;> rfl
  · unfold afterSettings Keyed.effectUnder
    cases settings.get? "resolverContext" with
    | none => rfl
    | some value => cases value <;> rfl

/-! ### Configurations -/

namespace Field

/-- How a field comes out of a mapping of known keys, be its entries good or bad. -/
structure Salvages (settings : Json.Settings) (before after : Field) : Prop where
  sameName : after.name = before.name
  sameDefinition : after.definition = before.definition
  sameWiring : after.wiring = before.wiring
  attributes : Attributes.Salvages settings before.attributes after.attributes
  arguments :
    match settings.get? "args" with
    | some (.object members) => SalvagesArguments (Keyed.ofList members) before after
    | _ => after.arguments = before.arguments

theorem takeArguments_eq_withArguments (value : Json) (field : Field) :
    takeArguments value field = field.withArguments (takeArguments value field).arguments := by
  unfold takeArguments
  split
  · exact applyArguments_fst_eq_withArguments field _
  · rfl

theorem salvages_configure {settings : Json.Settings}
    (known : settings.keys.all FieldConfig.keys.contains = true) (field : Field) :
    Salvages settings field (field.configure (.mapping settings)).1 := by
  have onlyArguments : settings.effectUnder "args" takeArguments field =
      field.withArguments (settings.effectUnder "args" takeArguments field).arguments := by
    unfold Keyed.effectUnder
    split
    · exact takeArguments_eq_withArguments _ field
    · rfl
  have sameName := congrArg Field.name onlyArguments
  have sameDefinition := congrArg Field.definition onlyArguments
  have sameWiring := congrArg Field.wiring onlyArguments
  rw [configure_mapping_of_known known]
  refine ⟨sameName, sameDefinition, sameWiring, Attributes.salvages_afterSettings settings _, ?_⟩
  unfold Keyed.effectUnder
  cases settings.get? "args" with
  | none => rfl
  | some value =>
    cases value with
    | object members =>
      obtain ⟨goesOn, good, neverMade, halfway, otherwise⟩ :=
        salvagesArguments_applyArguments field (Keyed.ofList members)
      exact ⟨goesOn, good, neverMade, halfway, otherwise⟩
    | _ => rfl

/-- What a mapping makes of a field and what is reported for it. With a key that is not known, the
field stays as it is, and each such key is reported, in their order. Else each bad entry is
reported, in their order, each bad entry for an argument in its place; the result is a success if
there is none; and the good entries have had their effect. -/
theorem refused_or_salvaged (field : Field) (settings : Json.Settings) :
    ((∃ key ∈ settings.keys, key ∉ FieldConfig.keys) →
      field.configure (.mapping settings) =
        (field, (settings.keys.filter fun key => key ∉ FieldConfig.keys).map fun key =>
          .unrecognizedConfigKey field.place key (keyList FieldConfig.keys))) ∧
    ((∀ key ∈ settings.keys, key ∈ FieldConfig.keys) →
      (field.configure (.mapping settings)).2 =
        settings.members.flatMap (entryProblems field.label) ∧
      (Failure.settle (field.configure (.mapping settings)).2 () = .ok () ↔
        ∀ entry ∈ settings.members, entryProblems field.label entry = []) ∧
      Salvages settings field (field.configure (.mapping settings)).1) ∧
    Failure.Returned () (field.configure (.mapping settings)).2
      (Failure.settle (field.configure (.mapping settings)).2 ()) := by
  have allKnown : settings.keys.all FieldConfig.keys.contains = true ↔
      ∀ key ∈ settings.keys, key ∈ FieldConfig.keys := by
    simp only [List.all_eq_true, List.contains_iff_mem]
  refine ⟨?_, ?_, Failure.returned_settle _ ()⟩
  · rintro ⟨key, isKey, unknown⟩
    rw [configure_mapping, if_neg fun known => unknown (allKnown.mp known key isKey), unknownKeys]
    simp only [List.contains_eq_mem, decide_not]
  · intro known
    have reported := configure_mapping_of_known (allKnown.mpr known) field
    refine ⟨congrArg Prod.snd reported, ?_, salvages_configure (allKnown.mpr known) field⟩
    rw [Failure.settle_eq_ok_iff, and_iff_left rfl, reported, List.flatMap_eq_nil_iff]

/-- A bad type, a good description, and arguments: a mapping that goes wrong at its second entry,
one with a key that is not known, and a removal. -/
def brokenSettings : Json.Settings :=
  Keyed.ofList [("type", .boolean true), ("description", .text "All articles"),
    ("args", .object [
      ("limit", .object [("description", .text "The length of a page"), ("type", .null),
        ("defaultValue", .null)]),
      ("first", .object [("type", .text "Int"), ("size", .null)]),
      ("offset", .boolean false)])]

/-- The limit is described but keeps its default, there is no first, and the offset is gone. -/
theorem salvages_of_brokenSettings :
    (pagedByOffset.configure (.mapping brokenSettings)).2 =
        [.invalidConfigValue "field \"articles\"" "type" "expected a type string",
          .invalidConfigValue "argument \"limit\" of field \"articles\"" "type"
            "expected a type string",
          .unrecognizedConfigKey "argument \"first\" of field \"articles\"" "size"
            "type, defaultValue, description"] ∧
      (pagedByOffset.configure (.mapping brokenSettings)).1.description = some "All articles" ∧
      (pagedByOffset.configure (.mapping brokenSettings)).1.arguments.members =
        [⟨"limit", some (.written "Int"), some (.int "10"), some "The length of a page"⟩] ∧
      Salvages brokenSettings pagedByOffset
        (pagedByOffset.configure (.mapping brokenSettings)).1 := by
  have known := (refused_or_salvaged pagedByOffset brokenSettings).2.1 (by decide)
  exact ⟨by decide, by rfl, by rfl, known.2.2⟩

end Field

end SchemaAssembly
