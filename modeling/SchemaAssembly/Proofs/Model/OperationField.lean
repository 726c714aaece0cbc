/-
This file says what the fields of operations look like. The name that is configured for such a
field is put in front of the arguments of the operation, and the whole is read as a compact
definition. Type, description and resolver never depend on that reading. Name and arguments do:
they are as they should be exactly where the name is a valid one. Any other text that is read at
all leads to a field with another name, and a text that begins a comment takes away the arguments.
-/

import SchemaAssembly.Model.Operation
import SchemaAssembly.Proofs.Field.Attributes
import SchemaAssembly.Proofs.Field.InlineArguments

namespace SchemaAssembly.Operation

open Grammar

/-! ### What an operation gives to its field -/

/-- An argument of a plain type without a default. -/
def plainArgument (name : Name) (type : TypeRef) : WrittenArgument :=
  ⟨name, type, none⟩

/-- The type of identifiers. -/
def identifierType (required : Bool) : TypeRef :=
  .named ⟨"ID".toList, rfl⟩ required

/-- The type of whole numbers. -/
def integerType : TypeRef :=
  .named ⟨"Int".toList, rfl⟩ false

/-- The arguments of an operation, one by one. -/
def writtenArguments : Operation → List WrittenArgument
  | .read =>
    [plainArgument ⟨"limit".toList, rfl⟩ integerType,
      plainArgument ⟨"offset".toList, rfl⟩ integerType]
  | .readOne => [plainArgument ⟨"id".toList, rfl⟩ (identifierType true)]
  | .delete => [plainArgument ⟨"ids".toList, rfl⟩ (.list (identifierType true) true)]

/-- The arguments that the field of an operation should have, and in which order. -/
def ownArguments (operation : Operation) : List Argument :=
  operation.writtenArguments.map WrittenArgument.inlined

/-- The type of the field of an operation on the objects of a type with a valid name. -/
def resultRef (operation : Operation) (type : Name) : TypeRef :=
  match operation with
  | .read => .list (.named type true) true
  | .readOne => .named type false
  | .delete => .list (identifierType false) true

theorem text_resultRef (operation : Operation) (type : Name) :
    (operation.resultRef type).text = operation.resultType type.text := by
  refine String.toList_injective ?_
  cases operation with
  | read =>
    show (String.ofList ('[' :: ((type.letters ++ ['!']) ++ [']', '!']))).toList = _
    simp [resultType, Name.text, String.toList_append]
  | readOne =>
    show (String.ofList (type.letters ++ [])).toList = _
    simp [resultType, Name.text]
  | delete => rfl

/-! ### The definition of the field is read -/

theorem definition_writtenArguments (operation : Operation) (name : Name) :
    WrittenArgument.definition name operation.writtenArguments =
      name.text ++ operation.arguments := by
  refine String.toList_injective ?_
  rw [WrittenArgument.definition, String.toList_ofList, String.toList_append, Name.text,
    String.toList_ofList]
  cases operation <;> rfl

theorem members_ofList_ownArguments (operation : Operation) :
    (Keyed.ofList operation.ownArguments : Keyed Argument.name).members =
      operation.ownArguments := by
  refine Keyed.members_ofList_of_nodup ?_
  cases operation <;> decide

/-- Behind a valid name the arguments of the operation are read as they are. -/
theorem nameAndArguments_of_name (operation : Operation) (name : Name) :
    Field.nameAndArguments (name.text ++ operation.arguments) =
      .ok (name, Keyed.ofList operation.ownArguments) := by
  have nonempty : operation.writtenArguments ≠ [] := by
    cases operation <;> exact List.cons_ne_nil _ _
  rw [← definition_writtenArguments, Field.nameAndArguments,
    WrittenArgument.parse_definition name nonempty]
  dsimp only
  rw [List.map_map]
  rfl

/-! ### The configuration of the field -/

theorem get?_fieldConfig_type (operation : Operation) (type : String) (config : Json.Settings) :
    (operation.fieldConfig type config).get? "type" = some (.text (operation.resultType type)) := by
  rw [fieldConfig, List.filterMap_cons, List.filterMap_cons]
  cases config.get? "resolver" <;> cases config.get? "description" <;> rfl

/-- Resolver and description are taken over from the configuration of the operation. -/
theorem get?_fieldConfig_of_mem (operation : Operation) (type : String) (config : Json.Settings)
    {key : String} (takenOver : key ∈ ["resolver", "description"]) :
    (operation.fieldConfig type config).get? key = config.get? key := by
  rw [fieldConfig, List.filterMap_cons, List.filterMap_cons]
  rcases List.mem_pair.mp takenOver with rfl | rfl <;>
    cases config.get? "resolver" <;> cases config.get? "description" <;> rfl

theorem args_not_mem_keys_fieldConfig (operation : Operation) (type : String)
    (config : Json.Settings) : "args" ∉ (operation.fieldConfig type config).keys := by
  rw [fieldConfig, Keyed.keys_ofList, List.mem_eraseDups, List.filterMap_cons,
    List.filterMap_cons]
  cases config.get? "resolver" <;> cases config.get? "description" <;> simp

/-! ### The field that is made -/

/-- The field of an operation is made if all keys of its configuration are known and a field can be
made from the name that is chosen for it. -/
theorem makeField_eq_ok_iff {operation : Operation} {type : String} {config : Json.Settings}
    {wiring : Wiring} {field : Field} :
    operation.makeField type config wiring = .ok field ↔
      (∀ key ∈ config.keys, key ∈ configKeys) ∧
        ∃ name, operation.fieldName type config = .ok name ∧
          Field.make (name ++ operation.arguments) (.mapping (operation.fieldConfig type config))
            wiring = .ok field := by
  have known : (config.keys.find? fun key => !configKeys.contains key) = none ↔
      ∀ key ∈ config.keys, key ∈ configKeys := by
    simp
  unfold makeField
  split
  · next key unknown =>
    refine ⟨nofun, fun ⟨allKnown, _⟩ => ?_⟩
    rw [known.mpr allKnown] at unknown
    cases unknown
  · next allKnown =>
    rw [and_iff_right (known.mp allKnown)]
    cases operation.fieldName type config with
    | error problem => simp
    | ok name => simp

/-- What a field takes from its operation and the configuration, whatever its name: the type, the
description and the resolver. -/
structure HasAttributes (operation : Operation) (type : String) (config : Json.Settings)
    (field : Field) : Prop where
  typed : field.type? = some (.written (operation.resultType type))
  described : field.description =
    match config.get? "description" with
    | some (.text description) => some description
    | _ => none
  resolved :
    match config.get? "resolver" with
    | some value => Target.ofJson value = .ok field.resolver
    | none => field.resolver = none

theorem hasAttributes_of_makeField {operation : Operation} {type : String}
    {config : Json.Settings} {wiring : Wiring} {field : Field}
    (made : operation.makeField type config wiring = .ok field) :
    operation.HasAttributes type config field := by
  obtain ⟨-, name, -, madeField⟩ := makeField_eq_ok_iff.mp made
  have attributes := Field.attributes_of_make madeField
  refine ⟨?_, ?_, ?_⟩
  · refine (congrArg Attributes.type? attributes).trans ?_
    show (match (operation.fieldConfig type config).get? "type" with
      | some (.text given) => some (ConfiguredType.written given)
      | _ => none) = _
    rw [get?_fieldConfig_type]
  · refine (congrArg Attributes.description attributes).trans ?_
    show (match (operation.fieldConfig type config).get? "description" with
      | some (.text description) => some description
      | _ => none) = _
    rw [operation.get?_fieldConfig_of_mem type config (by simp)]
  · have given : FieldConfig.value? "resolver" (.mapping (operation.fieldConfig type config)) =
        config.get? "resolver" := operation.get?_fieldConfig_of_mem type config (by simp)
    have resolver : field.resolver =
        FieldConfig.target? "resolver" (.mapping (operation.fieldConfig type config)) :=
      congrArg Attributes.resolver attributes
    have gives := Field.gives_of_make madeField (Or.inl rfl)
    rw [FieldConfig.Gives, given] at gives
    rw [resolver]
    exact gives

/-- Name and arguments of a field are as they should be: the name is the chosen one, and the
arguments are those of the operation. -/
structure IsAsConfigured (operation : Operation) (type : String) (config : Json.Settings)
    (field : Field) : Prop where
  named : operation.fieldName type config = .ok field.label
  arguments : field.arguments.members = operation.ownArguments

theorem isAsConfigured_of_isName {operation : Operation} {type : String} {config : Json.Settings}
    {wiring : Wiring} {field : Field} (made : operation.makeField type config wiring = .ok field)
    {name : String} (chosen : operation.fieldName type config = .ok name)
    (valid : isName name = true) : operation.IsAsConfigured type config field := by
  obtain ⟨-, same, isSame, madeField⟩ := makeField_eq_ok_iff.mp made
  obtain rfl : name = same := Except.ok.inj (chosen.symm.trans isSame)
  have text : Name.text ⟨name.toList, valid⟩ = name := String.ofList_toList
  have read := operation.nameAndArguments_of_name ⟨name.toList, valid⟩
  rw [text, Field.arguments_of_make madeField (operation.args_not_mem_keys_fieldConfig type config),
    Except.ok.injEq, Prod.mk.injEq] at read
  refine ⟨?_, ?_⟩
  · rw [chosen, Field.label, read.1, text]
  · rw [read.2, members_ofList_ownArguments]

/-- The field of an operation has the type of the operation, and description and resolver of the
configuration. Its name is the chosen one, and its arguments are those of the operation, exactly
where the chosen name is valid. -/
theorem isAsConfigured_iff (operation : Operation) (type : String) (config : Json.Settings)
    (wiring : Wiring) (field : Field)
    (made : operation.makeField type config wiring = .ok field) :
    operation.HasAttributes type config field ∧
      (∀ name : Name, name.text = type →
        field.resolvedType = .ok (operation.resultRef name)) ∧
      ∃ name, operation.fieldName type config = .ok name ∧
        (operation.IsAsConfigured type config field ↔ isName name = true) := by
  have attributes := hasAttributes_of_makeField made
  refine ⟨attributes, ?_, ?_⟩
  · rintro name rfl
    rw [Field.resolvedType, attributes.typed, ← text_resultRef]
    exact TypeRef.resolve_written_text _ _
  · obtain ⟨-, name, chosen, -⟩ := makeField_eq_ok_iff.mp made
    refine ⟨name, chosen, fun asConfigured => ?_, isAsConfigured_of_isName made chosen⟩
    obtain rfl : name = field.label := Except.ok.inj (chosen.symm.trans asConfigured.named)
    exact field.name.isName_text

/-- A configured name and a description. -/
theorem isAsConfigured_latestPosts :
    let config : Json.Settings :=
      Keyed.ofList [("name", .text "latestPosts"), ("description", .text "The latest posts")]
    ∃ field, makeField .read "Post" config (.start [.standard]) = .ok field ∧
      field.label = "latestPosts" ∧
      field.arguments.members = ownArguments .read ∧
      field.description = some "The latest posts" := by
  intro config
  have read := nameAndArguments_of_name .read ⟨"latestPosts".toList, by decide⟩
  have madeField : makeField .read "Post" config (.start [.standard]) = .ok _ :=
    makeField_eq_ok_iff.mpr
      ⟨by decide, "latestPosts", rfl, Field.make_eq_ok_iff.mpr ⟨_, _, read, rfl⟩⟩
  obtain ⟨attributes, -, name, chosen, asConfigured⟩ :=
    isAsConfigured_iff .read "Post" config _ _ madeField
  cases chosen
  have good := asConfigured.mpr (by decide)
  exact ⟨_, madeField, rfl, good.arguments, attributes.described⟩

/-- A name with a comment behind it takes away the arguments, and the field has another name. -/
theorem not_isAsConfigured_of_comment :
    let config : Json.Settings := Keyed.ofList [("name", .text "x #")]
    ∃ field, makeField .read "Post" config (.start [.standard]) = .ok field ∧
      field.label = "x" ∧ field.arguments.members = [] ∧
      ¬IsAsConfigured .read "Post" config field := by
  intro config
  have laid : Laid [.name ⟨"x".toList, by decide⟩] "x #(limit: Int, offset: Int)".toList := by
    have noLineEnd : "(limit: Int, offset: Int)".toList.any isLineEnd = false := by decide
    have inLine : ∀ letter ∈ "(limit: Int, offset: Int)".toList, isLineEnd letter = false :=
      fun letter isPart => eq_false_of_ne_true (List.any_eq_false.mp noLineEnd letter isPart)
    have comment : IsIgnored [] ('#' :: ("(limit: Int, offset: Int)".toList ++ [])) :=
      .comment inLine (by simp) .nil
    have gap : IsIgnored [] (' ' :: '#' :: ("(limit: Int, offset: Int)".toList ++ [])) :=
      .blank rfl comment
    have spelled : Spells (.name ⟨"x".toList, by decide⟩) ['x'] := rfl
    exact .cons .nil spelled (fun _ => not_startsWord_cons rfl _) (.nil gap)
  have read : Field.nameAndArguments ("x #" ++ arguments .read) =
      .ok (⟨"x".toList, by decide⟩, ∅) := by
    have parsed : Signature.parse ("x #" ++ arguments .read) =
        .ok ⟨⟨"x".toList, by decide⟩, []⟩ :=
      Signature.parse_eq_ok_iff_laid.mpr ⟨List.forall_mem_nil _, laid⟩
    rw [Field.nameAndArguments, parsed]
    rfl
  have madeField : makeField .read "Post" config (.start [.standard]) = .ok _ :=
    makeField_eq_ok_iff.mpr ⟨by decide, "x #", rfl, Field.make_eq_ok_iff.mpr ⟨_, _, read, rfl⟩⟩
  refine ⟨_, madeField, rfl, rfl, fun asConfigured => ?_⟩
  exact List.cons_ne_nil _ _ asConfigured.arguments.symm

end SchemaAssembly.Operation
