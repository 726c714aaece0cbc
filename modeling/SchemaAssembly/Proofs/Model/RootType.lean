/-
This file proves what the root types come to that get their fields from operations. The operations
that are known at first are told apart by their identifiers, and on objects of one type by the
names of their fields, which are valid where the name of the type is. So no two of these fields are
merged, and a root type defines one field for each operation that lives on it, with the name, the
arguments and the type of the operation, in the order in which the operations came first.
-/

import Mathlib.Data.List.Nodup
import SchemaAssembly.Proofs.Grammar.LineBreak
import SchemaAssembly.Proofs.Model.OperationList

namespace SchemaAssembly

theorem Name.eq_mk {name : Name} {text : String} (same : name.text = text)
    (valid : isNameText text.toList = true) : name = ⟨text.toList, valid⟩ := by
  subst same
  exact Name.ext String.toList_ofList.symm

/-- An argument of a compact definition, as it is defined. -/
def WrittenArgument.argumentDefinition (argument : WrittenArgument) : ArgumentDefinition :=
  ⟨none, argument.name, argument.type, argument.constant?⟩

theorem WrittenArgument.toDefinition_inlined (argument : WrittenArgument) (field : String) :
    argument.inlined.toDefinition field = .ok argument.argumentDefinition :=
  Argument.toDefinition_eq_ok_iff.mpr ⟨rfl, rfl, rfl, rfl⟩

/-! ### Operations and their fields -/

namespace Operation

theorem identifier_injective : Function.Injective identifier := by
  intro first second same
  cases first <;> cases second <;> first | rfl | exact absurd same (by decide)

/-- The operations that are known at first are found under their identifiers only. -/
theorem find_standard_eq_ok_iff {name : String} {operation : Operation} :
    Operations.standard.find name ∅ = .ok operation ↔ operation.identifier = name := by
  constructor
  · intro found
    by_cases isKnown : name ∈ Operations.standard.identifiers.keys
    · replace isKnown : name ∈ ["read", "readOne", "delete"] := isKnown
      simp only [List.mem_cons, List.not_mem_nil, or_false] at isKnown
      rcases isKnown with rfl | rfl | rfl <;> cases found <;> rfl
    · have unknown : Operations.standard.identifiers.get? name = none := by
        rw [Keyed.get?, Keyed.find?_eq_none_iff.mpr isKnown]
        rfl
      rw [Operations.find, unknown] at found
      cases found
  · rintro rfl
    cases operation <;> rfl

/-- The fields of operations on objects of one type have different names: deletions begin with
another letter, and the names of the two that read differ in length. -/
theorem defaultName_injective (type : String) :
    Function.Injective fun operation => defaultName operation type := by
  intro first second same
  have sameStart := congrArg (fun name => name.toList.head?) same
  have sameLength := congrArg String.length same
  cases first <;> cases second <;> simp [defaultName] at sameStart sameLength ⊢
  all_goals exact absurd sameLength (by decide)

theorem isName_defaultName (operation : Operation) (type : Name) :
    isName (operation.defaultName type.text) = true := by
  have goesOn : ∀ front back : String, isNameText front.toList = true →
      back.toList.all isNamePart = true → isName (front ++ type.text ++ back) = true := by
    intro front back start parts
    rw [isName, String.toList_append, String.toList_append, List.append_assoc]
    refine isNameText_append start ?_
    rw [List.all_append, Bool.and_eq_true, List.all_eq_true, Name.text, String.toList_ofList]
    exact ⟨fun letter member => type.isNamePart_of_mem member, parts⟩
  cases operation with
  | read => exact goesOn "read" "s" (by decide) (by decide)
  | readOne => exact goesOn "read" "One" (by decide) (by decide)
  | delete => exact goesOn "delete" "s" (by decide) (by decide)

/-- The field of an operation on objects of a type, as it should be defined. -/
def fieldDefinition (operation : Operation) (type : Name) : FieldDefinition where
  description := none
  name := ⟨(operation.defaultName type.text).toList, operation.isName_defaultName type⟩
  arguments := operation.writtenArguments.map WrittenArgument.argumentDefinition
  type := operation.resultRef type

variable {operation : Operation} {type : Name} {wiring : Wiring} {field : Field}

theorem isAsConfigured_of_makeField (made : operation.makeField type.text ∅ wiring = .ok field) :
    operation.IsAsConfigured type.text ∅ field :=
  isAsConfigured_of_isName made rfl (operation.isName_defaultName type)

theorem label_of_makeField (made : operation.makeField type.text ∅ wiring = .ok field) :
    field.label = operation.defaultName type.text :=
  (Except.ok.inj (isAsConfigured_of_makeField made).named).symm

theorem resolvedType_of_makeField (made : operation.makeField type.text ∅ wiring = .ok field) :
    field.resolvedType = .ok (operation.resultRef type) := by
  rw [Field.resolvedType, (hasAttributes_of_makeField made).typed, ← text_resultRef]
  exact TypeRef.resolve_written_text _ _

/-- The field of an operation is defined as the operation says. -/
theorem toDefinition_of_makeField (made : operation.makeField type.text ∅ wiring = .ok field)
    {definition : FieldDefinition} (defined : field.toDefinition = .ok definition) :
    definition = operation.fieldDefinition type := by
  obtain ⟨-, ofName, ofDescription, ofType, ofArguments⟩ := Field.toDefinition_eq_ok_iff.mp defined
  have sameDescription : definition.description = none :=
    ofDescription.trans (hasAttributes_of_makeField made).described
  have sameName : definition.name = (operation.fieldDefinition type).name :=
    ofName.trans (Name.eq_mk (label_of_makeField made) _)
  have sameArguments : definition.arguments = (operation.fieldDefinition type).arguments := by
    rw [(isAsConfigured_of_makeField made).arguments, ownArguments,
      List.forall₂_map_left_iff] at ofArguments
    refine (map_eq_of_forall₂ (fun argument argumentDefinition isDefined => ?_) ofArguments).symm
    rw [argument.toDefinition_inlined, Except.ok.injEq] at isDefined
    exact isDefined
  have sameType : definition.type = operation.resultRef type :=
    Except.ok.inj (ofType.symm.trans (resolvedType_of_makeField made))
  obtain ⟨description, name, arguments, resultType⟩ := definition
  cases sameDescription
  cases sameName
  cases sameArguments
  cases sameType
  rfl

end Operation

/-! ### Root types -/

/-- A root type with the fields of some operations on objects of a type, as far as they live on it,
as it should be defined. -/
def Root.definition (root : Root) (type : Name) (operations : List Operation) :
    ObjectDefinition where
  description := none
  name := ⟨root.name.toList, by cases root <;> rfl⟩
  fields := (operations.filter fun operation => operation.root = root).map fun operation =>
    operation.fieldDefinition type

namespace ModelType

variable {type changed : ModelType}

theorem operationEntry_standard_eq_ok_iff (standard : type.model.operations = .standard)
    {identifier : String} {entry : String × Root × Field} :
    type.operationEntry identifier = .ok entry ↔
      ∃ (operation : Operation) (field : Field), operation.identifier = identifier ∧
        operation.makeField type.model.typeName ∅ type.objectType.wiring = .ok field ∧
        entry = (identifier, operation.root, field) := by
  simp only [operationEntry_eq_ok_iff, standard, Operation.find_standard_eq_ok_iff]

/-- Only operations that are known can be added. -/
theorem exists_operations_of_addOperations (standard : type.model.operations = .standard)
    {identifiers : List String} (added : type.addOperations identifiers = .ok changed) :
    ∃ operations : List Operation, identifiers = operations.map Operation.identifier := by
  obtain ⟨entries, -, made⟩ := exists_of_addOperations added
  clear added
  induction made with
  | nil => exact ⟨[], rfl⟩
  | cons madeFirst _ inductionHypothesis =>
    obtain ⟨operations, rfl⟩ := inductionHypothesis
    obtain ⟨operation, -, rfl, -⟩ := (operationEntry_standard_eq_ok_iff standard).mp madeFirst
    exact ⟨operation :: operations, rfl⟩

/-- An operation as it is kept: under its identifier, with its root type and its field. -/
structure IsKept (type : ModelType) (operation : Operation) (entry : String × Root × Field) :
    Prop where
  identifier : entry.1 = operation.identifier
  root : entry.2.1 = operation.root
  made : operation.makeField type.model.typeName ∅ type.objectType.wiring = .ok entry.2.2

theorem IsKept.of_operationEntry (standard : type.model.operations = .standard)
    {operation : Operation} {entry : String × Root × Field}
    (made : type.operationEntry operation.identifier = .ok entry) : type.IsKept operation entry := by
  obtain ⟨same, field, sameIdentifier, madeField, rfl⟩ :=
    (operationEntry_standard_eq_ok_iff standard).mp made
  cases Operation.identifier_injective sameIdentifier
  exact ⟨rfl, rfl, madeField⟩

/-- Operations that are added to a type without any are kept in the order in which they came first,
each once. -/
theorem operations_of_addOperations (standard : type.model.operations = .standard)
    (noOperations : type.operations = ∅) {operations : List Operation}
    (added : type.addOperations (operations.map Operation.identifier) = .ok changed) :
    List.Forall₂ type.IsKept operations.eraseDups changed.operations.members := by
  have settles : Settles fun (type : ModelType) (operation : Operation) =>
      type.addOperation operation.identifier ∅ :=
    ⟨settles_addOperation.again, settles_addOperation.goesOn⟩
  have addedOnce : type.addOperations (operations.eraseDups.map Operation.identifier) =
      .ok changed := by
    rw [addOperations, List.foldlM_map] at added ⊢
    exact (settles.foldlM_eraseDups type operations).trans added
  obtain ⟨entries, rfl, made⟩ := exists_of_addOperations addedOnce
  rw [List.forall₂_map_left_iff] at made
  have kept : List.Forall₂ type.IsKept operations.eraseDups entries :=
    made.imp fun _ _ madeEntry => .of_operationEntry standard madeEntry
  have distinct : (entries.map Prod.fst).Nodup := by
    rw [← map_eq_map_of_forall₂ (fun _ _ isKept => isKept.identifier.symm) kept]
    exact (nodup_eraseDups operations).map Operation.identifier_injective
  have members : (type.withOperations entries).operations.members = entries := by
    rw [withOperations, noOperations]
    exact Keyed.members_ofList_of_nodup distinct
  rw [members]
  exact kept

/-- Each operation is on the root type on which it lives. -/
theorem operationsOn_of_forall₂ {operations : List Operation}
    (kept : List.Forall₂ type.IsKept operations changed.operations.members) (root : Root) :
    List.Forall₂
      (fun operation field =>
        operation.makeField type.model.typeName ∅ type.objectType.wiring = .ok field)
      (operations.filter fun operation => operation.root = root) (changed.operationsOn root) := by
  have sameRoot : Relator.LiftFun type.IsKept (· ↔ ·)
      (fun operation => decide (operation.root = root) = true)
      (fun entry => decide (entry.2.1 = root) = true) := by
    intro operation entry isKept
    show decide (operation.root = root) = true ↔ decide (entry.2.1 = root) = true
    rw [isKept.root]
  rw [operationsOn, Keyed.values, List.filter_map, List.map_map, List.forall₂_map_right_iff]
  exact (List.rel_filter sameRoot kept).imp fun _ _ isKept => isKept.made

/-- The fields of operations on objects of a type have names that are all different. -/
theorem nodup_labels {dataType : Name} {wiring : Wiring} {operations : List Operation}
    {fields : List Field} (distinct : operations.Nodup)
    (made : List.Forall₂
      (fun operation field => operation.makeField dataType.text ∅ wiring = .ok field)
      operations fields) :
    (fields.map Field.label).Nodup := by
  have labels : operations.map (fun operation => operation.defaultName dataType.text) =
      fields.map Field.label := by
    refine map_eq_map_of_forall₂ (fun operation field madeField => ?_) made
    exact (Operation.label_of_makeField madeField).symm
  rw [← labels]
  exact distinct.map (Operation.defaultName_injective dataType.text)

/-- The fields of operations share the wiring of the type to which these were added. -/
theorem sharesWiring_applyOperations {operations : List Operation}
    (kept : List.Forall₂ type.IsKept operations changed.operations.members) (root : Root) :
    (changed.applyOperations root (.empty root.name type.objectType.wiring)).SharesWiring
      type.objectType.wiring := by
  refine (ObjectType.sharesWiring_empty root.name type.objectType.wiring).addAll ?_
  exact forall_mem_of_forall₂ (fun _ _ made => Operation.wiring_of_makeField made)
    (operationsOn_of_forall₂ kept root)

section RootTypes

variable {dataType : Name} (named : dataType.text = type.model.typeName)
  {operations : List Operation} (distinct : operations.Nodup)
  (kept : List.Forall₂ type.IsKept operations changed.operations.members)
  (root : Root) (wiring : Wiring)

include named distinct kept

/-- To a root type without fields the operations contribute theirs as they are. -/
theorem members_applyOperations :
    (changed.applyOperations root (.empty root.name wiring)).fields.members =
      changed.operationsOn root := by
  have made := operationsOn_of_forall₂ kept root
  rw [← named] at made
  exact (ObjectType.empty root.name wiring).members_addAll_of_nodup _
    (nodup_labels (distinct.filter _) made)

/-- A root type is defined with one field for each operation that lives on it. -/
theorem definition_of_build_applyOperations {built : BuiltObject}
    (success : (changed.applyOperations root (.empty root.name wiring)).build = .ok built) :
    built.definition = root.definition dataType operations := by
  have made := operationsOn_of_forall₂ kept root
  have sameType : changed.applyOperations root (.empty root.name wiring) = _ :=
    ObjectType.addAll_eq (.empty root.name wiring) (changed.operationsOn root)
  have defined := ObjectType.fields_of_build success
  obtain ⟨builtName, -, builtDescription, -⟩ := ObjectType.build_eq_ok_iff.mp success
  rw [members_applyOperations named distinct kept root wiring] at defined
  rw [sameType] at builtName builtDescription
  have sameName : built.definition.name = (root.definition dataType operations).name :=
    Name.eq_mk builtName _
  have sameFields : built.definition.fields = (root.definition dataType operations).fields := by
    rw [← named] at made
    refine (map_eq_of_forall₂_of_forall₂ (fun operation field definition madeField isDefined => ?_)
      made defined).symm
    exact (Operation.toDefinition_of_makeField madeField isDefined).symm
  obtain ⟨⟨description, name, fields⟩, bindings⟩ := built
  cases builtDescription
  cases sameName
  cases sameFields
  rfl

/-- A root type has fields if some operation lives on it. -/
theorem isEmpty_fields_applyOperations_iff :
    (changed.applyOperations root (.empty root.name wiring)).fields.isEmpty = false ↔
      ∃ operation ∈ operations, operation.root = root := by
  have sameLength := (operationsOn_of_forall₂ kept root).length_eq
  rw [Keyed.isEmpty, members_applyOperations named distinct kept, List.isEmpty_eq_false_iff,
    ← List.length_pos_iff, ← sameLength, List.length_filter_pos_iff]
  simp only [decide_eq_true_eq]

end RootTypes

end ModelType

end SchemaAssembly
