/-
This file says what an arguments mapping makes of the arguments of a field. Each entry settles what
stands under its own name and nothing else. A good one removes the argument, gives it a type, or
writes the attributes that it mentions over those that are there; a bad one makes no argument, and
leaves the one that is there as it is, unless it fails halfway. The arguments that were there keep
their order whatever becomes of them, and new ones follow in the order of the mapping: a removal
moves the others up, a change stays in its place, and only what is new goes to the end.
-/

import SchemaAssembly.Proofs.Field.Entry
import SchemaAssembly.Proofs.Field.Lookup

namespace SchemaAssembly

namespace Argument

/-! ### One name -/

/-- What a good entry of an arguments mapping makes of an argument. False removes it. -/
def taking (argument : Argument) : Json → Option Argument
  | .boolean false => none
  | .text type => some { argument with type? := some (.written type) }
  | .object members => some (argument.updated (Keyed.ofList members))
  | _ => some argument

/-- What a bad entry of an arguments mapping leaves of an argument. It stays as it is, unless the
entry is a mapping of known keys that fails on a value: then what comes before has been applied. -/
def spared (argument : Argument) : Json → Argument
  | .object members =>
    if isName argument.name ∧ knowsKeys (Keyed.ofList members) then
      argument.updated (beforeRefusal (Keyed.ofList members))
    else argument
  | _ => argument

/-- What stands under a name after its entry of an arguments mapping: a good entry applies to the
argument that is there or to a bare one, a bad entry makes none. -/
def leftUnder (field name : String) (value : Json) (before : Option Argument) : Option Argument :=
  match entryProblem? field (name, value) with
  | none => (before.getD (bare name)).taking value
  | some _ => before.map fun argument => argument.spared value

theorem afterConfig_type {field name : String} (type : ConfiguredType) (before : Option Argument) :
    afterConfig field name (.type type) before =
      if isName name then some { before.getD (bare name) with type? := some type } else before := by
  unfold afterConfig
  cases before <;> rfl

/-- A mapping without problems is taken as a whole. Of another one, an argument that is there takes
what stands before the refusal, if all keys are known. -/
theorem afterConfig_mapping {field name : String} {settings : Json.Settings}
    {before : Option Argument} (valid : isName name = true)
    (named : ∀ argument ∈ before, argument.name = name) :
    afterConfig field name (.mapping settings) before =
      match mappingProblem? (placeOfArgument name field) settings with
      | none => some ((before.getD (bare name)).updated settings)
      | some _ => before.map fun argument =>
          if knowsKeys settings then argument.updated (beforeRefusal settings) else argument := by
  have whole : mappingProblem? (placeOfArgument name field) settings = none →
      knowsKeys settings = true ∧ beforeRefusal settings = settings := by
    intro good
    obtain ⟨known, allGood⟩ := mappingProblem?_eq_none_iff.mp good
    exact ⟨known, beforeRefusal_eq_self allGood⟩
  unfold afterConfig
  rw [if_pos valid]
  cases before with
  | some argument =>
    dsimp only
    rw [argument.configure_mapping]
    cases good : mappingProblem? (placeOfArgument name field) settings with
    | some problem => rfl
    | none =>
      obtain ⟨known, all⟩ := whole good
      rw [if_pos known, all]
      rfl
  | none =>
    have sameName : (bare name).name = name := rfl
    dsimp only
    unfold ofConfig
    rw [configure_mapping, sameName]
    cases good : mappingProblem? (placeOfArgument name field) settings with
    | some problem => rfl
    | none =>
      obtain ⟨known, all⟩ := whole good
      rw [if_pos known, all]
      rfl

theorem afterEntry_eq_leftUnder {field name : String} {before : Option Argument}
    (named : ∀ argument ∈ before, argument.name = name) (value : Json) :
    afterEntry field name value before = leftUnder field name value before := by
  cases value with
  | boolean value =>
    cases value with
    | true => cases before <;> rfl
    | false => rfl
  | text type =>
    show afterConfig field name (.type (.written type)) before =
      match configProblem? field name (.type (.written type)) with
      | none => some { before.getD (bare name) with type? := some (.written type) }
      | some _ => before.map id
    rw [afterConfig_type, Option.map_id]
    unfold configProblem?
    cases isName name <;> rfl
  | object members =>
    show afterConfig field name (.mapping (Keyed.ofList members)) before =
      match configProblem? field name (.mapping (Keyed.ofList members)) with
      | none => some ((before.getD (bare name)).updated (Keyed.ofList members))
      | some _ => before.map fun argument => argument.spared (.object members)
    unfold configProblem?
    cases valid : isName name with
    | true =>
      have sameSpared : (before.map fun argument => argument.spared (.object members)) =
          before.map fun argument =>
            if knowsKeys (Keyed.ofList members) then
              argument.updated (beforeRefusal (Keyed.ofList members))
            else argument := by
        refine Option.map_congr fun argument isThere => ?_
        rw [spared, named argument isThere, valid]
        simp
      rw [afterConfig_mapping valid named, sameSpared]
      rfl
    | false =>
      have unchanged : (before.map fun argument => argument.spared (.object members)) = before := by
        refine (Option.map_congr fun argument isThere => ?_).trans Option.map_id'
        rw [spared, named argument isThere, valid]
        simp
      unfold afterConfig
      rw [valid]
      exact unchanged.symm
  | _ => cases before <;> rfl

/-- How an argument adopts a mapping of known keys and good values: it keeps its name, each
attribute that the mapping mentions is what the mapping says, and the others stay. -/
structure Adopts (settings : Json.Settings) (before after : Argument) : Prop where
  sameName : after.name = before.name
  type :
    match settings.get? "type" with
    | some value => ∃ text, value = .text text ∧ after.type? = some (.written text)
    | none => after.type? = before.type?
  default :
    match settings.get? "defaultValue" with
    | some .null => after.default? = none
    | some value =>
      ∃ constant, Constant.ofJson value = .ok constant ∧ after.default? = some constant
    | none => after.default? = before.default?
  description :
    match settings.get? "description" with
    | some .null => after.description = none
    | some value => ∃ text, value = .text text ∧ after.description = some text
    | none => after.description = before.description

/-- An argument adopts all entries of a mapping in which no entry is refused. -/
theorem adopts_updated {settings : Json.Settings}
    (good : ∀ entry ∈ settings.members, refusal? entry = none) (argument : Argument) :
    Adopts settings argument (argument.updated settings) := by
  have goodUnder : ∀ {key : String} {value : Json}, settings.get? key = some value →
      refusal? (key, value) = none := by
    intro key value given
    exact good _ (Keyed.mem_of_get?_eq_some given)
  refine ⟨rfl, ?_, ?_, ?_⟩
  · unfold updated Keyed.effectUnder
    cases given : settings.get? "type" with
    | none => rfl
    | some value =>
      cases value with
      | text type => exact ⟨type, rfl, rfl⟩
      | _ => cases goodUnder given
  · unfold updated Keyed.effectUnder
    cases given : settings.get? "defaultValue" with
    | none => rfl
    | some value =>
      have notRefused := goodUnder given
      cases converted : Constant.ofJson value with
      | error key =>
        simp only [refusal?, converted] at notRefused
        cases notRefused
      | ok constant => cases value <;> simp [defaultAfter, converted, Except.toOption]
  · unfold updated Keyed.effectUnder
    cases given : settings.get? "description" with
    | none => rfl
    | some value =>
      cases value with
      | null => rfl
      | text description => exact ⟨description, rfl, rfl⟩
      | _ => cases goodUnder given

/-- What a good entry of an arguments mapping makes of what stands under its name. A type or a
mapping applies to the argument that is there, or to one about which nothing is known. -/
inductive Takes (name : String) : Json → Option Argument → Option Argument → Prop
  | removed (before : Option Argument) : Takes name (.boolean false) before none
  | typed (type : String) (before : Option Argument) :
      Takes name (.text type) before
        (some { before.getD (bare name) with type? := some (.written type) })
  | mapped (members : List (String × Json)) (before : Option Argument) {after : Argument}
      (adopts : Adopts (Keyed.ofList members) (before.getD (bare name)) after) :
      Takes name (.object members) before (some after)

theorem takes_taking {field name : String} {value : Json}
    (good : entryProblem? field (name, value) = none) (before : Option Argument) :
    Takes name value before ((before.getD (bare name)).taking value) := by
  cases value with
  | boolean value =>
    cases value with
    | true => cases good
    | false => exact .removed before
  | text type => exact .typed type before
  | object members =>
    replace good : configProblem? field name (.mapping (Keyed.ofList members)) = none := good
    unfold configProblem? at good
    split at good
    · exact .mapped members before (adopts_updated (mappingProblem?_eq_none_iff.mp good).2 _)
    · cases good
  | _ => cases good

end Argument

namespace Field

/-! ### All names -/

theorem find?_applyArguments_eq (field : Field) (settings : Json.Settings) (name : String) :
    (field.applyArguments settings).1.arguments.find? name =
      settings.effectUnder name (Argument.leftUnder field.label name)
        (field.arguments.find? name) := by
  rw [find?_applyArguments, Argument.afterSettings, Keyed.effectUnder]
  cases settings.get? name with
  | none => rfl
  | some value =>
    exact Argument.afterEntry_eq_leftUnder (fun _ found => Keyed.key_of_find?_eq_some found) value

/-- A good entry has its effect, whatever becomes of the others. -/
theorem takes_applyArguments (field : Field) {settings : Json.Settings} {name : String}
    {value : Json} (given : settings.get? name = some value)
    (good : Argument.entryProblem? field.label (name, value) = none) :
    Argument.Takes name value (field.arguments.find? name)
      ((field.applyArguments settings).1.arguments.find? name) := by
  rw [find?_applyArguments_eq, Keyed.effectUnder, given]
  dsimp only
  rw [Argument.leftUnder, good]
  exact Argument.takes_taking good (field.arguments.find? name)

/-- A bad entry leaves of an argument what it spares, and makes none. -/
theorem find?_applyArguments_of_bad (field : Field) {settings : Json.Settings} {name : String}
    {value : Json} (given : settings.get? name = some value)
    (bad : Argument.entryProblem? field.label (name, value) ≠ none) :
    (field.applyArguments settings).1.arguments.find? name =
      (field.arguments.find? name).map fun argument => argument.spared value := by
  obtain ⟨problem, isProblem⟩ := Option.ne_none_iff_exists'.mp bad
  rw [find?_applyArguments_eq, Keyed.effectUnder, given]
  dsimp only
  rw [Argument.leftUnder, isProblem]

theorem goesOn_configureArgument (field : Field) (name : String) (config : ArgumentConfig) :
    Keyed.GoesOn [name] field.arguments (field.configureArgument name config).1.arguments := by
  rcases configureArgument_fst field name config with same | ⟨argument, rfl, -, put⟩
  · rw [same]
    exact Keyed.GoesOn.refl _ _
  · rw [put]
    exact Keyed.goesOn_insert field.arguments argument

theorem goesOn_applyArgument (field : Field) (entry : String × Json) :
    Keyed.GoesOn [entry.1] field.arguments (field.applyArgument entry).1.arguments := by
  unfold applyArgument
  split
  · exact Keyed.goesOn_erase field.arguments _
  · exact goesOn_configureArgument field _ _
  · exact goesOn_configureArgument field _ _
  · exact Keyed.GoesOn.refl _ _

/-- Entries under different names write under these names. -/
theorem goesOn_applyAll (field : Field) {entries : List (String × Json)}
    (distinct : (entries.map Prod.fst).Nodup) :
    Keyed.GoesOn (entries.map Prod.fst) field.arguments
      (applyAll applyArgument field entries).1.arguments := by
  induction entries generalizing field with
  | nil => exact Keyed.GoesOn.refl _ _
  | cons first others inductionHypothesis =>
    rw [List.map_cons, List.nodup_cons] at distinct
    rw [applyAll_cons, List.map_cons, ← List.singleton_append]
    refine (goesOn_applyArgument field first).append (inductionHypothesis _ distinct.2) ?_
    simpa using distinct.1

/-- What becomes of the order of the arguments, whether the entries are good or bad. -/
theorem goesOn_applyArguments (field : Field) (settings : Json.Settings) :
    Keyed.GoesOn settings.keys field.arguments (field.applyArguments settings).1.arguments :=
  goesOn_applyAll field settings.distinct

/-- A field with other arguments. -/
def withArguments (field : Field) (arguments : Keyed Argument.name) : Field :=
  { field with arguments := arguments }

theorem applyArgument_fst_eq_withArguments (field : Field) (entry : String × Json) :
    (field.applyArgument entry).1 =
      field.withArguments (field.applyArgument entry).1.arguments := by
  have configured : ∀ name config, (field.configureArgument name config).1 =
      field.withArguments (field.configureArgument name config).1.arguments := by
    intro name config
    rcases configureArgument_fst field name config with same | ⟨argument, -, -, put⟩
    · rw [same]
      rfl
    · rw [put]
      rfl
  unfold applyArgument
  split
  · rfl
  · exact configured _ _
  · exact configured _ _
  · rfl

/-- An arguments mapping, good or bad, changes nothing but the arguments. -/
theorem applyArguments_fst_eq_withArguments (field : Field) (settings : Json.Settings) :
    (field.applyArguments settings).1 =
      field.withArguments (field.applyArguments settings).1.arguments := by
  let onlyArguments : Field → Prop := fun between => between = field.withArguments between.arguments
  have kept : ∀ between entry, onlyArguments between →
      onlyArguments (between.applyArgument entry).1 := by
    intro between entry soFar
    have single := applyArgument_fst_eq_withArguments between entry
    rw [soFar] at single ⊢
    exact single
  exact applyAll_invariant kept rfl settings.members

/-! ### Good mappings -/

/-- Whether an arguments mapping removes the argument with the given name. -/
def removes (settings : Json.Settings) (name : String) : Bool :=
  match settings.get? name with
  | some (.boolean false) => true
  | _ => false

/-- What a good arguments mapping makes of a field. Nothing but the arguments changes. Those that
were there keep their order, and the new ones follow in the order of the mapping, but for those
that are removed. An argument that is not mentioned stays as it is, and one that is mentioned
takes what is said. -/
structure AdoptsArguments (settings : Json.Settings) (before after : Field) : Prop where
  onlyArguments : after = before.withArguments after.arguments
  order : after.arguments.keys =
    (before.arguments.keys ++ settings.keys.filter fun name => name ∉ before.arguments.keys).filter
      fun name => !removes settings name
  untouched : ∀ name, settings.get? name = none →
    after.arguments.find? name = before.arguments.find? name
  taken : ∀ name value, settings.get? name = some value →
    Argument.Takes name value (before.arguments.find? name) (after.arguments.find? name)

/-- An arguments mapping that meets no problem has an effect on the arguments that it mentions,
and on nothing else. -/
theorem adoptsArguments_of_applyArguments {field after : Field} {settings : Json.Settings}
    (good : field.applyArguments settings = (after, [])) :
    AdoptsArguments settings field after := by
  have goesOn := goesOn_applyArguments field settings
  have onlyArguments := applyArguments_fst_eq_withArguments field settings
  have noProblems := applyArguments_snd field settings
  rw [good] at goesOn onlyArguments noProblems
  have untouched : ∀ name, settings.get? name = none →
      after.arguments.find? name = field.arguments.find? name :=
    fun name notGiven => goesOn.untouched name (Keyed.get?_eq_none_iff.mp notGiven)
  have taken : ∀ name value, settings.get? name = some value →
      Argument.Takes name value (field.arguments.find? name) (after.arguments.find? name) := by
    intro name value given
    have noProblem : Argument.entryProblem? field.label (name, value) = none :=
      List.filterMap_eq_nil_iff.mp noProblems.symm _ (Keyed.mem_of_get?_eq_some given)
    have takes := field.takes_applyArguments given noProblem
    rwa [good] at takes
  refine ⟨onlyArguments, ?_, untouched, taken⟩
  rw [goesOn.order]
  refine List.filter_congr fun name isKey => ?_
  rw [Keyed.contains_eq_isSome_find?, removes]
  cases given : settings.get? name with
  | none =>
    have notNew : name ∉ settings.keys := Keyed.get?_eq_none_iff.mp given
    have present : name ∈ field.arguments.keys := (List.mem_append.mp isKey).resolve_right
      fun isNew => notNew (List.mem_filter.mp isNew).1
    rw [untouched name given, ← Keyed.contains_eq_isSome_find?]
    exact (Keyed.contains_iff_mem_keys _ _).mpr present
  | some value =>
    have takes := taken name value given
    generalize after.arguments.find? name = left at takes ⊢
    cases takes <;> rfl

/-- A field whose results come in pages, given by a limit with a default and by an offset. -/
def pagedByOffset : Field :=
  unconfigured "articles" ⟨"articles".toList, by decide⟩
    (Keyed.ofList [⟨"limit", some (.written "Int"), some (.int "10"), none⟩,
      ⟨"offset", some (.written "Int"), none, none⟩])
    (.start [])

/-- Gives up the offset for a cursor, and describes the limit. -/
def cursorSettings : Json.Settings :=
  Keyed.ofList [("offset", .boolean false), ("after", .text "ID"),
    ("limit", .object [("description", .text "The length of a page")])]

/-- The limit keeps its place, its type and its default, and the cursor follows. -/
theorem adoptsArguments_of_cursorSettings :
    (pagedByOffset.applyArguments cursorSettings).1.arguments.members =
        [⟨"limit", some (.written "Int"), some (.int "10"), some "The length of a page"⟩,
          ⟨"after", some (.written "ID"), none, none⟩] ∧
      AdoptsArguments cursorSettings pagedByOffset
        (pagedByOffset.applyArguments cursorSettings).1 := by
  have good : (pagedByOffset.applyArguments cursorSettings).2 = [] := by decide
  exact ⟨by rfl, adoptsArguments_of_applyArguments (Prod.ext rfl good)⟩

end Field

end SchemaAssembly
