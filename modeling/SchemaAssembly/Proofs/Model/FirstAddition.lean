/-
This file proves that the fields of a type with a model are what their first additions made of
them. Whatever the operations, each of them comes down to fields that are added one after the
other, made from definitions and configurations in a way that does not depend on what is there
already. So a run of operations is described by the history of its additions, and a field of the
type by the first addition in that history that makes a field of its name.
-/

import Mathlib.Data.List.TakeWhile
import SchemaAssembly.Proofs.Field.Attributes
import SchemaAssembly.Proofs.Model.AllFields
import SchemaAssembly.Proofs.Model.Reached
import SchemaAssembly.Proofs.ObjectType.Merging

namespace SchemaAssembly

/-! ### Additions -/

/-- A field as it is handed to a type: its definition and its configuration. -/
structure Addition where
  definition : String
  config : FieldConfig

namespace Addition

/-- A definition with a type, as a model lists it. -/
def typed (entry : String × String) : Addition :=
  ⟨entry.1, .type (.written entry.2)⟩

/-- A definition without configuration. -/
def plain (definition : String) : Addition :=
  ⟨definition, .empty⟩

/-- The field that is made in a type, if one can be made. -/
def field? (type : ModelType) (addition : Addition) : Option Field :=
  (type.makeField addition.definition addition.config).toOption

/-- The field of an addition is the one that the type makes. -/
theorem field?_eq_some_iff {type : ModelType} {addition : Addition} {field : Field} :
    addition.field? type = some field ↔
      type.makeField addition.definition addition.config = .ok field := by
  unfold field?
  cases type.makeField addition.definition addition.config with
  | ok made =>
    show some made = some field ↔ _
    rw [Option.some.injEq, Except.ok.injEq]
  | error failure => exact ⟨nofun, nofun⟩

theorem field?_eq_none_iff {type : ModelType} {addition : Addition} :
    addition.field? type = none ↔
      ∃ failure, type.makeField addition.definition addition.config = .error failure := by
  unfold field?
  cases type.makeField addition.definition addition.config with
  | ok made => exact ⟨nofun, nofun⟩
  | error failure => exact ⟨fun _ => ⟨failure, rfl⟩, fun _ => rfl⟩

end Addition

namespace ModelType

/-- The fields that some additions make. -/
def fieldsOf (type : ModelType) (additions : List Addition) : List Field :=
  additions.filterMap (Addition.field? type)

/-- The type with some fields added. -/
def withFields (type : ModelType) (fields : List Field) : ModelType :=
  { type with objectType := type.objectType.addAll fields }

/-- Additions up to the first that goes wrong. -/
def upToFailure (type : ModelType) (additions : List Addition) : List Addition :=
  additions.takeWhile fun addition => (addition.field? type).isSome

/-- The additions of an operation on a type. All fields are added up to the first that goes
wrong, and only those that are missing. -/
def Step.additions (type : ModelType) : Step → List Addition
  | .addField definition config => [⟨definition, config⟩]
  | .addFields definitions => definitions.map .plain
  | .addAllFields => type.upToFailure (type.missing.map .typed)
  | .addOperation _ _ | .removeField _ | .editObject _ => []

/-- Whether an operation adds fields, be they of the type or of its operations, and does nothing
else. -/
def Step.OnlyAdds : Step → Prop
  | .addField _ _ | .addFields _ | .addAllFields | .addOperation _ _ => True
  | .removeField _ | .editObject _ => False

/-- The type after several operations. -/
def run (type : ModelType) (steps : List Step) : ModelType :=
  steps.foldl Step.apply type

/-- The additions of several operations, each in the state in which it finds the type. -/
def additions (type : ModelType) : List Step → List Addition
  | [] => []
  | step :: others => step.additions type ++ (step.apply type).additions others

/-- The additions with which the type of a model starts. -/
def defaultAdditions (model : Model) : List Addition :=
  model.defaultFields.members.map .typed

/-- All additions to a type that a model starts, in their order. -/
def history (model : Model) (start : ModelType) (steps : List Step) : List Addition :=
  defaultAdditions model ++ start.additions steps

/-! ### What is made does not depend on what is there -/

/-- Two types over the same model and wiring. -/
structure SameSetting (first second : ModelType) : Prop where
  model : first.model = second.model
  wiring : first.objectType.wiring = second.objectType.wiring

/-- Types over the same model and wiring make the same fields. -/
theorem SameSetting.field? {first second : ModelType} (same : first.SameSetting second) :
    Addition.field? first = Addition.field? second := by
  funext addition
  rw [Addition.field?, Addition.field?, makeField, makeField, same.model, same.wiring]

theorem SameSetting.fieldsOf {first second : ModelType} (same : first.SameSetting second) :
    first.fieldsOf = second.fieldsOf := by
  funext additions
  rw [ModelType.fieldsOf, same.field?, ModelType.fieldsOf]

theorem SameSetting.upToFailure {first second : ModelType} (same : first.SameSetting second) :
    first.upToFailure = second.upToFailure := by
  funext additions
  rw [ModelType.upToFailure, same.field?, ModelType.upToFailure]

theorem sameSetting_withFields (type : ModelType) (fields : List Field) :
    (type.withFields fields).SameSetting type := by
  refine ⟨rfl, ?_⟩
  rw [withFields, ObjectType.addAll_eq]

/-! ### One operation -/

theorem withFields_append (type : ModelType) (first second : List Field) :
    type.withFields (first ++ second) = (type.withFields first).withFields second := by
  rw [withFields, ObjectType.addAll, List.foldl_append]
  rfl

theorem fieldsOf_append (type : ModelType) (first second : List Addition) :
    type.fieldsOf (first ++ second) = type.fieldsOf first ++ type.fieldsOf second :=
  List.filterMap_append

theorem fieldsOf_cons_of_some {type : ModelType} {first : Addition} {field : Field}
    (made : first.field? type = some field) (others : List Addition) :
    type.fieldsOf (first :: others) = [field] ++ type.fieldsOf others :=
  List.filterMap_cons_some made

theorem fieldsOf_cons_of_none {type : ModelType} {first : Addition}
    (notMade : first.field? type = none) (others : List Addition) :
    type.fieldsOf (first :: others) = type.fieldsOf others :=
  List.filterMap_cons_none notMade

/-- A field that can be made is added. -/
theorem addField_of_some {type : ModelType} {definition : String} {config : FieldConfig}
    {field : Field} (made : Addition.field? type ⟨definition, config⟩ = some field) :
    type.addField definition config = .ok (type.withFields [field]) := by
  rw [addField, Addition.field?_eq_some_iff.mp made]
  rfl

/-- A field that cannot be made is not added. -/
theorem addField_of_none {type : ModelType} {definition : String} {config : FieldConfig}
    (notMade : Addition.field? type ⟨definition, config⟩ = none) :
    ∃ failure, type.addField definition config = .error failure := by
  obtain ⟨failure, failed⟩ := Addition.field?_eq_none_iff.mp notMade
  exact ⟨failure, by rw [addField, failed]⟩

/-- The problems that have been collected do not matter for the type that is left. -/
theorem fst_addFields (type : ModelType) (definitions : List String) :
    (type.addFields definitions).1 = type.withFields (type.fieldsOf (definitions.map .plain)) := by
  have followed : (type.addFields definitions).1 =
      definitions.foldl
        (fun before definition => before.withFields (before.fieldsOf [.plain definition])) type := by
    refine (List.foldl_hom Prod.fst fun before definition => ?_).symm
    cases made : (Addition.plain definition).field? before.1 with
    | some field =>
      rw [addField_of_some made, fieldsOf_cons_of_some made]
      rfl
    | none =>
      obtain ⟨failure, failed⟩ := addField_of_none made
      rw [failed, fieldsOf_cons_of_none made]
      rfl
  rw [followed]
  clear followed
  induction definitions generalizing type with
  | nil => rfl
  | cons first others inductionHypothesis =>
    have same := type.sameSetting_withFields (type.fieldsOf [.plain first])
    rw [List.foldl_cons, inductionHypothesis, same.fieldsOf, ← withFields_append,
      ← fieldsOf_append]
    rfl

theorem fst_addTyped (type : ModelType) (entries : List (String × String)) :
    (type.addTyped entries).1 =
      type.withFields (type.fieldsOf (type.upToFailure (entries.map .typed))) := by
  induction entries generalizing type with
  | nil => rfl
  | cons first others inductionHypothesis =>
    rw [List.map_cons, upToFailure, addTyped]
    cases made : (Addition.typed first).field? type with
    | some field =>
      have same := type.sameSetting_withFields [field]
      rw [addField_of_some made, List.takeWhile_cons_of_pos (by rw [made, Option.isSome_some])]
      dsimp only
      rw [inductionHypothesis, same.upToFailure, same.fieldsOf, fieldsOf_cons_of_some made,
        withFields_append]
      rfl
    | none =>
      obtain ⟨failure, failed⟩ := addField_of_none made
      rw [failed, List.takeWhile_cons_of_neg (by simp [made])]
      rfl

/-- An operation is not added to the object type. -/
theorem objectType_of_addOperation {type changed : ModelType} {identifier : String}
    {config : Json.Settings} (added : type.addOperation identifier config = .ok changed) :
    changed.objectType = type.objectType ∧ changed.model = type.model := by
  unfold addOperation at added
  split at added
  · cases added
  · split at added
    · cases added
    · cases added
      exact ⟨rfl, rfl⟩

/-- An operation that only adds does to the fields what its additions do. -/
theorem objectType_apply (type : ModelType) {step : Step} (onlyAdds : step.OnlyAdds) :
    (step.apply type).objectType =
        type.objectType.addAll (type.fieldsOf (step.additions type)) ∧
      (step.apply type).model = type.model := by
  cases step with
  | addField definition config =>
    unfold Step.apply Step.additions
    dsimp only
    cases made : Addition.field? type ⟨definition, config⟩ with
    | some field =>
      rw [addField_of_some made, fieldsOf_cons_of_some made]
      exact ⟨rfl, rfl⟩
    | none =>
      obtain ⟨failure, failed⟩ := addField_of_none made
      rw [failed, fieldsOf_cons_of_none made]
      exact ⟨rfl, rfl⟩
  | addFields definitions =>
    have added : (Step.addFields definitions).apply type = _ := type.fst_addFields definitions
    rw [added]
    exact ⟨rfl, rfl⟩
  | addAllFields =>
    have added : Step.addAllFields.apply type = _ := type.fst_addTyped type.missing
    rw [added]
    exact ⟨rfl, rfl⟩
  | addOperation identifier config =>
    unfold Step.apply
    dsimp only
    split
    · next added => exact objectType_of_addOperation added
    · exact ⟨rfl, rfl⟩
  | removeField name => exact onlyAdds.elim
  | editObject step => exact onlyAdds.elim

/-! ### A run of operations -/

theorem sameSetting_apply (type : ModelType) {step : Step} (onlyAdds : step.OnlyAdds) :
    (step.apply type).SameSetting type := by
  obtain ⟨sameFields, sameModel⟩ := type.objectType_apply onlyAdds
  refine ⟨sameModel, ?_⟩
  rw [sameFields, ObjectType.addAll_eq]

/-- A run that only adds does to the fields what its additions do. -/
theorem objectType_run (type : ModelType) {steps : List Step}
    (onlyAdds : ∀ step ∈ steps, step.OnlyAdds) :
    (type.run steps).objectType =
      type.objectType.addAll (type.fieldsOf (type.additions steps)) := by
  induction steps generalizing type with
  | nil => rfl
  | cons first others inductionHypothesis =>
    obtain ⟨firstAdds, othersAdd⟩ := List.forall_mem_cons.mp onlyAdds
    show ((first.apply type).run others).objectType = _
    rw [inductionHypothesis _ othersAdd, (type.sameSetting_apply firstAdds).fieldsOf,
      (type.objectType_apply firstAdds).1, additions, fieldsOf_append, ObjectType.addAll,
      ObjectType.addAll, ObjectType.addAll, List.foldl_append]

theorem isSome_of_addTyped {type : ModelType} {entries : List (String × String)}
    (noFailure : (type.addTyped entries).2 = none) :
    ∀ addition ∈ entries.map Addition.typed, (addition.field? type).isSome = true := by
  induction entries generalizing type with
  | nil => exact List.forall_mem_nil _
  | cons first others inductionHypothesis =>
    rw [addTyped] at noFailure
    rw [List.map_cons, List.forall_mem_cons]
    cases made : (Addition.typed first).field? type with
    | some field =>
      rw [addField_of_some made] at noFailure
      have othersMade := inductionHypothesis noFailure
      rw [(type.sameSetting_withFields [field]).field?] at othersMade
      exact ⟨rfl, othersMade⟩
    | none =>
      obtain ⟨failure, failed⟩ := addField_of_none made
      rw [failed] at noFailure
      cases noFailure

/-- What is known of the type with which the assembly starts. -/
structure Starts (model : Model) (wiring : Wiring) (start : ModelType) : Prop where
  sameModel : start.model = model
  defaultsMade : ∀ addition ∈ defaultAdditions model, (addition.field? start).isSome = true
  objectType : start.objectType =
    (ObjectType.empty model.typeName wiring).addAll (start.fieldsOf (defaultAdditions model))

theorem starts_of_ofModel {model : Model} {wiring : Wiring} {start : ModelType}
    (isStart : ofModel model wiring = .ok start) : start.Starts model wiring := by
  unfold ofModel at isStart
  dsimp only at isStart
  split at isStart
  · next filled isFilled =>
    cases isStart
    let bare : ModelType := ⟨model, .empty model.typeName wiring, ∅⟩
    have all := isSome_of_addTyped (congrArg Prod.snd isFilled)
    have asFields : start = bare.withFields (bare.fieldsOf (defaultAdditions model)) := by
      rw [defaultAdditions, ← List.takeWhile_eq_self_iff.mpr all]
      exact (congrArg Prod.fst isFilled).symm.trans (fst_addTyped bare _)
    have same := bare.sameSetting_withFields (bare.fieldsOf (defaultAdditions model))
    rw [← asFields] at same
    refine ⟨same.model, ?_, ?_⟩
    · rw [same.field?]
      exact all
    · rw [same.fieldsOf]
      exact congrArg ModelType.objectType asFields
  · cases isStart

/-! ### The first addition of a name -/

/-- Among some additions, the first that makes a field of a name. -/
structure IsFirstAddition (type : ModelType) (history : List Addition) (name : String)
    (addition : Addition) (made : Field) : Prop where
  first : ∃ before after, history = before ++ addition :: after ∧
    ∀ earlier ∈ before, ∀ other ∈ earlier.field? type, other.label ≠ name
  makes : addition.field? type = some made
  named : made.label = name

theorem IsFirstAddition.cons {type : ModelType} {history : List Addition} {name : String}
    {addition : Addition} {made : Field} (isFirst : IsFirstAddition type history name addition made)
    {earlier : Addition} (otherName : ∀ other ∈ earlier.field? type, other.label ≠ name) :
    IsFirstAddition type (earlier :: history) name addition made := by
  obtain ⟨⟨before, after, rfl, others⟩, isMade, named⟩ := isFirst
  exact ⟨⟨earlier :: before, after, rfl, List.forall_mem_cons.mpr ⟨otherName, others⟩⟩,
    isMade, named⟩

/-- The fields of a name start with the one that was made first. -/
theorem exists_isFirstAddition {type : ModelType} {history : List Addition} {name : String}
    {made : Field} {others : List Field}
    (ofName : (type.fieldsOf history).filter (fun field => field.label = name) = made :: others) :
    ∃ addition, IsFirstAddition type history name addition made := by
  induction history with
  | nil => cases ofName
  | cons head tail inductionHypothesis =>
    cases isMade : head.field? type with
    | none =>
      rw [fieldsOf_cons_of_none isMade] at ofName
      obtain ⟨addition, isFirst⟩ := inductionHypothesis ofName
      exact ⟨addition, isFirst.cons (Field.forall_mem_of_eq_none isMade _)⟩
    | some field =>
      rw [fieldsOf_cons_of_some isMade, List.singleton_append] at ofName
      by_cases named : field.label = name
      · rw [List.filter_cons_of_pos (by simpa using named)] at ofName
        obtain rfl : field = made := (List.cons.inj ofName).1
        exact ⟨head, ⟨[], tail, rfl, List.forall_mem_nil _⟩, isMade, named⟩
      · rw [List.filter_cons_of_neg (by simpa using named)] at ofName
        obtain ⟨addition, isFirst⟩ := inductionHypothesis ofName
        refine ⟨addition, isFirst.cons fun other isOther => ?_⟩
        rw [isMade, Option.mem_some_iff] at isOther
        exact isOther ▸ named

theorem IsFirstAddition.filter_fieldsOf {type : ModelType} {history : List Addition}
    {name : String} {addition : Addition} {made : Field}
    (isFirst : IsFirstAddition type history name addition made) :
    ∃ others,
      (type.fieldsOf history).filter (fun field => field.label = name) = made :: others := by
  obtain ⟨⟨before, after, rfl, otherNames⟩, isMade, named⟩ := isFirst
  have noneBefore : (type.fieldsOf before).filter (fun field => field.label = name) = [] := by
    refine List.filter_eq_nil_iff.mpr fun other isOther => ?_
    obtain ⟨earlier, isEarlier, makes⟩ := List.mem_filterMap.mp isOther
    simpa using otherNames earlier isEarlier other makes
  rw [fieldsOf_append, fieldsOf_cons_of_some isMade, List.filter_append, noneBefore,
    List.nil_append, List.singleton_append, List.filter_cons_of_pos (by simpa using named)]
  exact ⟨_, rfl⟩

/-! ### What an addition settles -/

end ModelType

/-- A field is what an addition makes of it over a model. The name is that of the definition. The
type is the configured one; where this is missing or blank, it is the type that the model has for
the name, if the model has one. The default resolver is that of the model unless the configuration
settles it. The rest is as configured. -/
structure Field.IsAddedWith (model : Model) (addition : Addition) (field : Field) : Prop where
  named : ∃ arguments, nameAndArguments addition.definition = .ok (field.name, arguments)
  typed : ∀ type ∈ addition.config.type?, type.isBlank = false → field.type? = some type
  inferred : addition.config.type?.all ConfiguredType.isBlank = true →
    ∀ type ∈ model.typeOfField field.label, field.type? = some (.written type)
  untyped : addition.config.type?.all ConfiguredType.isBlank = true →
    model.typeOfField field.label = none → field.type? = addition.config.type?
  described : field.description = addition.config.description?
  inContext : field.context = addition.config.context
  resolved : addition.config.Gives "resolver" none field.resolver
  resolvedByDefault :
    addition.config.Gives "defaultResolver" (some model.defaultResolver) field.defaultResolver

namespace ModelType

/-- A model gives a type to a field without one, if it knows the field. -/
theorem withModelType_eq (model : Model) (field : Field) :
    withModelType model field =
      { field with
        type? :=
          if field.type?.all ConfiguredType.isBlank then
            ((model.typeOfField field.label).map ConfiguredType.written).or field.type?
          else field.type? } := by
  unfold withModelType
  split
  · cases model.typeOfField field.label <;> rfl
  · rfl

/-- A model gives its default resolver to a field without one, unless the configuration settles
it. -/
theorem withModelResolver_eq (model : Model) (config : FieldConfig) (field : Field) :
    withModelResolver model config field =
      { field with
        defaultResolver :=
          if settlesDefault config then field.defaultResolver
          else field.defaultResolver.or (some model.defaultResolver) } := by
  unfold withModelResolver
  obtain ⟨_, _, _, _, _, _, defaultResolver, _, _⟩ := field
  cases settlesDefault config <;> cases defaultResolver <;> rfl

theorem settlesDefault_eq_isSome (config : FieldConfig) :
    settlesDefault config = (config.value? "defaultResolver").isSome := by
  cases config with
  | mapping settings =>
    show settings.contains "defaultResolver" = (settings.get? "defaultResolver").isSome
    rw [Keyed.contains_eq_isSome_find?, Keyed.get?, Option.isSome_map]
  | type | template => rfl

theorem exists_make_of_field? {type : ModelType} {addition : Addition} {field : Field}
    (made : addition.field? type = some field) :
    ∃ bare, Field.make addition.definition addition.config type.objectType.wiring = .ok bare ∧
      withModelResolver type.model addition.config (withModelType type.model bare) = field := by
  rw [Addition.field?_eq_some_iff] at made
  unfold makeField at made
  split at made
  · next bare madeBare => exact ⟨bare, madeBare, Except.ok.inj made⟩
  · cases made

/-- A field that is made has what its addition settles. -/
theorem isAddedWith_of_field? {type : ModelType} {addition : Addition} {field : Field}
    (made : addition.field? type = some field) : field.IsAddedWith type.model addition := by
  obtain ⟨bare, madeBare, rfl⟩ := exists_make_of_field? made
  have attributes := Field.attributes_of_make madeBare
  have sameType : bare.type? = addition.config.type? := congrArg Attributes.type? attributes
  have sameResolver : bare.resolver = addition.config.target? "resolver" :=
    congrArg Attributes.resolver attributes
  have sameDefault : bare.defaultResolver = addition.config.target? "defaultResolver" :=
    congrArg Attributes.defaultResolver attributes
  have named := Field.nameAndArguments_of_make madeBare
  rw [withModelResolver_eq, withModelType_eq, sameType]
  constructor
  case named => exact named
  case described => exact congrArg Attributes.description attributes
  case inContext => exact congrArg Attributes.context attributes
  case typed =>
    intro given isGiven notBlank
    rw [Option.mem_def] at isGiven
    rw [isGiven, Option.all_some, notBlank]
    rfl
  case inferred =>
    intro blank inferred isInferred
    show (if addition.config.type?.all ConfiguredType.isBlank = true then _ else _) = _
    have ofName : type.model.typeOfField bare.label = some inferred := isInferred
    rw [if_pos blank, ofName]
    rfl
  case untyped =>
    intro blank notInferred
    show (if addition.config.type?.all ConfiguredType.isBlank = true then _ else _) = _
    have ofName : type.model.typeOfField bare.label = none := notInferred
    rw [if_pos blank, ofName]
    rfl
  case resolved =>
    have gives := Field.gives_of_make madeBare (Or.inl rfl)
    rw [← sameResolver] at gives
    exact gives
  case resolvedByDefault =>
    have gives := Field.gives_of_make madeBare (Or.inr rfl)
    unfold FieldConfig.Gives at gives ⊢
    dsimp only
    rw [settlesDefault_eq_isSome, sameDefault]
    cases given : addition.config.value? "defaultResolver" with
    | some value =>
      rw [given] at gives
      exact gives
    | none =>
      rw [given] at gives
      rw [gives]
      rfl

/-! ### The fields of a type that has been assembled -/

/-- Some fields come from the additions in a history: every field that was made is there under its
name, and is what the first addition of its name settles, but for its arguments. -/
structure ComeFrom (start : ModelType) (history : List Addition) (fields : Keyed Field.label) :
    Prop where
  present : ∀ addition ∈ history, ∀ made ∈ addition.field? start, made.label ∈ fields.keys
  settled : ∀ name field, fields.find? name = some field →
    ∃ addition made, IsFirstAddition start history name addition made ∧
      made.IsAddedWith start.model addition ∧ field = { made with arguments := field.arguments }

section Assembled

variable {model : Model} {wiring : Wiring} {start : ModelType} {steps : List Step}

/-- What is found under a name after any additions is the merge of all fields that were made with
this name. -/
theorem find?_run (isStart : ofModel model wiring = .ok start)
    (onlyAdds : ∀ step ∈ steps, step.OnlyAdds) (name : String) :
    (start.run steps).objectType.fields.find? name = ObjectType.merged
      ((start.fieldsOf (history model start steps)).filter fun field => field.label = name) := by
  rw [objectType_run start onlyAdds, (starts_of_ofModel isStart).objectType, history,
    fieldsOf_append]
  show (((ObjectType.empty model.typeName wiring).addAll _).addAll _).fields.find? name = _
  rw [← ObjectType.addAll_append, ObjectType.find?_addAll]
  rfl

/-- The first addition of a name settles the field of the name. -/
theorem IsFirstAddition.exists_find?_run {name : String} {addition : Addition} {made : Field}
    (isFirst : IsFirstAddition start (history model start steps) name addition made)
    (isStart : ofModel model wiring = .ok start) (onlyAdds : ∀ step ∈ steps, step.OnlyAdds) :
    ∃ field, (start.run steps).objectType.fields.find? name = some field ∧
      field = { made with arguments := field.arguments } := by
  obtain ⟨others, ofName⟩ := isFirst.filter_fieldsOf
  rw [find?_run isStart onlyAdds, ofName]
  exact ⟨_, rfl, (Field.isUnionOf_foldl_merge made others).sameAttributes⟩

theorem comeFrom_run (isStart : ofModel model wiring = .ok start)
    (onlyAdds : ∀ step ∈ steps, step.OnlyAdds) :
    ComeFrom start (history model start steps) (start.run steps).objectType.fields := by
  refine ⟨fun addition isAddition made makes => ?_, fun name field found => ?_⟩
  · have ofName : made ∈ (start.fieldsOf (history model start steps)).filter
        (fun field => field.label = made.label) :=
      List.mem_filter.mpr ⟨List.mem_filterMap.mpr ⟨addition, isAddition, makes⟩, by simp⟩
    by_contra absent
    rw [← Keyed.find?_eq_none_iff, find?_run isStart onlyAdds,
      ObjectType.merged_eq_none_iff] at absent
    rw [absent] at ofName
    exact List.not_mem_nil ofName
  · rw [find?_run isStart onlyAdds] at found
    obtain ⟨first, others, ofName, isUnion⟩ := ObjectType.exists_of_merged_eq_some found
    obtain ⟨addition, isFirst⟩ := exists_isFirstAddition ofName
    exact ⟨addition, first, isFirst, isAddedWith_of_field? isFirst.makes, isUnion.sameAttributes⟩

/-- A default field of the model can be made, and is there under its name. -/
theorem exists_default (isStart : ofModel model wiring = .ok start)
    (onlyAdds : ∀ step ∈ steps, step.OnlyAdds) {entry : String × String}
    (isDefault : entry ∈ model.defaultFields.members) :
    ∃ made field, (Addition.typed entry).field? start = some made ∧
      (start.run steps).objectType.fields.find? made.label = some field := by
  have isAddition : Addition.typed entry ∈ defaultAdditions model := List.mem_map_of_mem isDefault
  obtain ⟨made, makes⟩ :=
    Option.isSome_iff_exists.mp ((starts_of_ofModel isStart).defaultsMade _ isAddition)
  have present := (comeFrom_run isStart onlyAdds).present _
    (List.mem_append_left (start.additions steps) isAddition) made makes
  rw [← Keyed.contains_iff_mem_keys, Keyed.contains_eq_isSome_find?] at present
  obtain ⟨field, found⟩ := Option.isSome_iff_exists.mp present
  exact ⟨made, field, makes, found⟩

/-- A default field keeps its type, unless this is blank or an earlier default field has the same
name. -/
theorem type?_default (isStart : ofModel model wiring = .ok start)
    (onlyAdds : ∀ step ∈ steps, step.OnlyAdds) {before after : List (String × String)}
    {entry : String × String} (split : model.defaultFields.members = before ++ entry :: after)
    {made field : Field} (makes : (Addition.typed entry).field? start = some made)
    (found : (start.run steps).objectType.fields.find? made.label = some field)
    (isFirst : ∀ earlier ∈ before, ∀ other ∈ (Addition.typed earlier).field? start,
      other.label ≠ made.label)
    (notBlank : Text.isBlank entry.2 = false) : field.type? = some (.written entry.2) := by
  have first : IsFirstAddition start (history model start steps) made.label (.typed entry)
      made := by
    refine ⟨⟨before.map .typed, after.map .typed ++ start.additions steps, ?_, ?_⟩, makes, rfl⟩
    · rw [history, defaultAdditions, split, List.map_append, List.map_cons, List.append_assoc,
        List.cons_append]
    · intro addition isEarlier
      obtain ⟨earlier, isBefore, rfl⟩ := List.mem_map.mp isEarlier
      exact isFirst earlier isBefore
  obtain ⟨same, alsoFound, fromFirst⟩ := first.exists_find?_run isStart onlyAdds
  obtain rfl : field = same := Option.some.inj (found.symm.trans alsoFound)
  rw [fromFirst]
  exact (isAddedWith_of_field? makes).typed _ rfl notBlank

/-- The types of a catalog start with the identifier. -/
theorem exists_identifier {dataClass : String} {catalog : Catalog} {operations : Operations}
    {defaultResolver : Target}
    (ofClass : Model.ofCatalog dataClass catalog operations defaultResolver = .ok model)
    (isStart : ofModel model wiring = .ok start) (onlyAdds : ∀ step ∈ steps, step.OnlyAdds) :
    ∃ field, (start.run steps).objectType.fields.find? "id" = some field ∧
      field.type? = some (.written "ID") := by
  have defaults : model.defaultFields.members = [("id", "ID")] := by
    unfold Model.ofCatalog at ofClass
    split at ofClass
    · cases ofClass
      rfl
    · cases ofClass
  have isDefault : ("id", "ID") ∈ model.defaultFields.members := by
    rw [defaults]
    exact List.mem_cons_self
  obtain ⟨made, field, makes, found⟩ := exists_default isStart onlyAdds isDefault
  have typed := type?_default isStart onlyAdds (defaults : _ = [] ++ ("id", "ID") :: []) makes found
    (List.forall_mem_nil _) (by decide)
  obtain ⟨arguments, read⟩ := (isAddedWith_of_field? makes).named
  have ofName := Field.nameAndArguments_text ⟨"id".toList, by decide⟩
  have sameName : made.name = ⟨"id".toList, by decide⟩ :=
    (Prod.mk.inj (Except.ok.inj (read.symm.trans ofName))).1
  rw [Field.label, sameName] at found
  exact ⟨field, found, typed⟩

/-- What is there is changed by later operations in its arguments alone. -/
theorem exists_find?_run_append {earlier later : List Step}
    (onlyAdds : ∀ step ∈ earlier ++ later, step.OnlyAdds) {name : String} {field : Field}
    (found : (start.run earlier).objectType.fields.find? name = some field) :
    ∃ after, (start.run (earlier ++ later)).objectType.fields.find? name = some after ∧
      after = { field with arguments := after.arguments } := by
  have laterAdds : ∀ step ∈ later, step.OnlyAdds := fun step isLater =>
    onlyAdds step (List.mem_append_right earlier isLater)
  have twoRuns : start.run (earlier ++ later) = (start.run earlier).run later := List.foldl_append
  rw [twoRuns, objectType_run _ laterAdds]
  exact ObjectType.exists_find?_addAll found _

end Assembled

/-- After any run of operations that only add, on a type that a model starts, be they successful or
not, the fields come from the first additions of their names. The default fields of the model are
there, with their types; where two of them have one name it is the type of the first, and where the
type is blank it is that of the model. In particular every type of a catalog has its identifier. And
whatever was there at some point has not changed since but for its arguments. -/
theorem comeFrom_firstAdditions (model : Model) (wiring : Wiring) (start : ModelType)
    (isStart : ofModel model wiring = .ok start) (steps : List Step)
    (onlyAdds : ∀ step ∈ steps, step.OnlyAdds) :
    start.model = model ∧
    ComeFrom start (history model start steps) (start.run steps).objectType.fields ∧
    (∀ before entry after, model.defaultFields.members = before ++ entry :: after →
      ∃ made field, (Addition.typed entry).field? start = some made ∧
        (start.run steps).objectType.fields.find? made.label = some field ∧
        ((∀ earlier ∈ before, ∀ other ∈ (Addition.typed earlier).field? start,
          other.label ≠ made.label) →
          Text.isBlank entry.2 = false → field.type? = some (.written entry.2))) ∧
    (∀ dataClass catalog operations defaultResolver,
      Model.ofCatalog dataClass catalog operations defaultResolver = .ok model →
        ∃ field, (start.run steps).objectType.fields.find? "id" = some field ∧
          field.type? = some (.written "ID")) ∧
    ∀ earlier later, steps = earlier ++ later → ∀ name field,
      (start.run earlier).objectType.fields.find? name = some field →
        ∃ after, (start.run steps).objectType.fields.find? name = some after ∧
          after = { field with arguments := after.arguments } := by
  refine ⟨(starts_of_ofModel isStart).sameModel, comeFrom_run isStart onlyAdds, ?_,
    fun _ _ _ _ ofClass => exists_identifier ofClass isStart onlyAdds, ?_⟩
  · intro before entry after split
    have isDefault : entry ∈ model.defaultFields.members := by
      rw [split]
      exact List.mem_append_right before List.mem_cons_self
    obtain ⟨made, field, makes, found⟩ := exists_default isStart onlyAdds isDefault
    exact ⟨made, field, makes, found, type?_default isStart onlyAdds split makes found⟩
  · rintro earlier later rfl name field found
    exact exists_find?_run_append onlyAdds found

/-- The identifier of posts keeps its type when fields of its name are added with another type, and
without one. -/
theorem comeFrom_firstAdditions_post :
    ∃ model start field,
      Model.ofCatalog "Blog\\Post" Catalog.blog .standard .standard = .ok model ∧
      ofModel model (.start [.standard]) = .ok start ∧
      (start.run [.addField "id(of: Int)" (.type (.written "Int")), .addFields ["id", "title"],
        .addAllFields]).objectType.fields.find? "id" = some field ∧
      field.type? = some (.written "ID") := by
  have known : Catalog.blog.hasClass "Blog\\Post" = true := rfl
  obtain ⟨model, start, ofClass, isStart, -⟩ := exists_startsFrom known
  have onlyAdds : ∀ step ∈ [Step.addField "id(of: Int)" (.type (.written "Int")),
      .addFields ["id", "title"], .addAllFields], step.OnlyAdds := by
    simp [Step.OnlyAdds]
  obtain ⟨-, -, -, identifier, -⟩ := comeFrom_firstAdditions model _ start isStart _ onlyAdds
  obtain ⟨field, found, typed⟩ := identifier _ _ _ _ ofClass
  exact ⟨model, start, field, ofClass, isStart, found, typed⟩

end ModelType

end SchemaAssembly
