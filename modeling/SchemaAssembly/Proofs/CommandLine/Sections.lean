/-
This file proves what the commands print. In a wiring that knows the standard function alone every
field is resolved by it, so the lines behind a definition say the same of every field. The command
for a data class prints the type of the class and then each root type on which one of the given
operations lives, with one field for each of them; operations that are given again are not printed
again. The command for a single field prints a type with this field and one line.
-/

import SchemaAssembly.CommandLine
import SchemaAssembly.Proofs.Model.RootType

namespace SchemaAssembly.CommandLine

/-! ### One section -/

/-- The line that says that the standard function resolves a field. -/
def standardLine (type field : Name) : String :=
  "# " ++ type.text ++ "." ++ field.text ++ " => DefaultResolver::defaultFieldResolver\n"

/-- A definition with a line for each field, in the order of the fields, that says that the standard
function resolves it. -/
def printed (definition : ObjectDefinition) : String :=
  definition.sdl ++
    String.join (definition.fields.map fun field => standardLine definition.name field.name)

theorem bindingLine_standard (type field : Name) :
    bindingLine type (field.text, .ofReference ⟨.standard⟩) = standardLine type field := by
  rw [bindingLine, String.append_assoc, String.append_assoc]
  rfl

/-- What is built from fields that share the wiring of the commands is printed with a line for the
standard function behind each field. -/
theorem render_of_build {type : ObjectType} {built : BuiltObject}
    (shares : type.SharesWiring wiring) (success : type.build = .ok built) :
    render built = printed built.definition := by
  let line : String × Reference → String := fun bound =>
    bindingLine built.definition.name (bound.1, .ofReference bound.2)
  have lines : built.bindings.members.map (bindingLine built.definition.name) =
      built.definition.fields.map fun field => standardLine built.definition.name field.name :=
    calc built.bindings.members.map (bindingLine built.definition.name)
        = (built.bindings.members.map fun entry => (entry.1, entry.2.reference)).map line := by
          rw [List.map_map]
          rfl
      _ = built.definition.fields.map fun field =>
          standardLine built.definition.name field.name := by
          rw [shares.bindings_of_build success, List.map_map]
          exact List.map_congr_left fun field _ => bindingLine_standard _ field.name
  rw [render, lines, printed]

theorem refusing_eq_ok_iff {α : Type} {result : Except Failure α} {value : α} :
    refusing result = .ok value ↔ result = .ok value := by
  cases result <;> simp [refusing]

/-! ### The command for a field -/

/-- A type with a single field is built into a definition with a single field. -/
theorem exists_fields_eq_singleton {typeName : String} {field : Field} {built : BuiltObject}
    (success : ((ObjectType.empty typeName wiring).addField field).build = .ok built) :
    built.definition.name.text = typeName ∧
      ∃ definition : FieldDefinition, definition.name = field.name ∧
        built.definition.fields = [definition] := by
  have defined : List.Forall₂ _ [field] built.definition.fields := ObjectType.fields_of_build success
  obtain ⟨definition, others, isDefined, noOthers, fields⟩ := List.forall₂_cons_left_iff.mp defined
  cases noOthers
  exact ⟨(ObjectType.build_eq_ok_iff.mp success).1, definition,
    Field.name_of_toDefinition isDefined, fields⟩

/-- What is printed for a field: the definition of a type with this field, and one line. -/
theorem exists_of_buildField {definition config typeName output : String}
    (success : buildField definition config typeName = .ok output) :
    ∃ (type : ObjectDefinition) (field : FieldDefinition), type.name.text = typeName ∧
      type.fields = [field] ∧
      (∃ arguments, Field.nameAndArguments definition = .ok (field.name, arguments)) ∧
      output = type.sdl ++ standardLine type.name field.name := by
  unfold buildField at success
  split at success
  · cases success
  · split at success
    · cases success
    · next settings _ =>
      simp only [refusing_eq_ok_iff, Failure.bind_eq_ok_iff] at success
      obtain ⟨type, created, built, isBuilt, ⟨⟩⟩ := success
      have shares := (ObjectType.sharesWiring_empty typeName wiring).createField created
      unfold ObjectType.createField at created
      split at created
      · next field made =>
        cases created
        obtain ⟨named, fieldDefinition, sameName, fields⟩ := exists_fields_eq_singleton isBuilt
        refine ⟨built.definition, fieldDefinition, named, fields, ?_, ?_⟩
        · rw [sameName]
          exact Field.nameAndArguments_of_make made
        · rw [render_of_build shares isBuilt, printed, fields, List.map_singleton]
          simp [String.join]
      · cases created

/-! ### The type of a data class -/

/-- What is known of the type of a data class before operations are added. -/
structure IsOfClass (dataClass : String) (type : ModelType) : Prop where
  named : type.objectType.name = Spelling.unqualified dataClass
  sameName : type.model.typeName = Spelling.unqualified dataClass
  standard : type.model.operations = .standard
  shares : type.objectType.SharesWiring wiring
  noOperations : type.operations = ∅

theorem IsOfClass.addTyped {dataClass : String} {type changed : ModelType}
    {entries : List (String × String)} {failure : Option Failure}
    (isOfClass : IsOfClass dataClass type) (added : type.addTyped entries = (changed, failure)) :
    IsOfClass dataClass changed := by
  have asFields := type.fst_addTyped entries
  rw [added] at asFields
  subst asFields
  refine ⟨?_, isOfClass.sameName, isOfClass.standard, ?_, isOfClass.noOperations⟩
  · rw [ModelType.withFields, ObjectType.addAll_eq]
    exact isOfClass.named
  · exact isOfClass.shares.addAll fun field isMade =>
      (ModelType.wiring_of_mem_fieldsOf isMade).trans isOfClass.shares.ofType

theorem isOfClass_of_ofModel {catalog : Catalog} {dataClass : String} {model : Model}
    {start : ModelType}
    (isModel : Model.ofCatalog dataClass catalog .standard .standard = .ok model)
    (isStart : ModelType.ofModel model wiring = .ok start) : IsOfClass dataClass start := by
  have bare : IsOfClass dataClass ⟨model, .empty model.typeName wiring, ∅⟩ := by
    unfold Model.ofCatalog at isModel
    split at isModel
    · cases isModel
      exact ⟨rfl, rfl, rfl, ObjectType.sharesWiring_empty _ _, rfl⟩
    · cases isModel
  unfold ModelType.ofModel at isStart
  dsimp only at isStart
  split at isStart
  · next filled isFilled =>
    cases isStart
    exact bare.addTyped isFilled
  · cases isStart

/-- A type is assembled from one of its class to which the operations are added. -/
theorem exists_isOfClass_of_assemble {catalog : Catalog} {dataClass : String} {allFields : Bool}
    {identifiers : List String} {type : ModelType}
    (assembled : assemble catalog dataClass allFields identifiers = .ok type) :
    ∃ complete, IsOfClass dataClass complete ∧ complete.addOperations identifiers = .ok type := by
  simp only [assemble, Failure.bind_eq_ok_iff, Problem.alone_eq_ok_iff] at assembled
  obtain ⟨model, isModel, start, isStart, added⟩ := assembled
  have startsOfClass := isOfClass_of_ofModel isModel isStart
  split at added
  · split at added
    · next complete filled => exact ⟨complete, startsOfClass.addTyped filled, added⟩
    · cases added
  · exact ⟨start, startsOfClass, added⟩

/-- Of the identifiers only the first mentions matter for the assembly. -/
theorem assemble_congr (catalog : Catalog) (dataClass : String) (allFields : Bool)
    {identifiers others : List String} (same : others.eraseDups = identifiers.eraseDups) :
    assemble catalog dataClass allFields others =
      assemble catalog dataClass allFields identifiers := by
  have sameAdded : ∀ type : ModelType,
      type.addOperations others = type.addOperations identifiers := fun type => by
    rw [← ModelType.addOperations_eraseDups, same, ModelType.addOperations_eraseDups]
  unfold ModelType.addOperations at sameAdded
  simp only [assemble, sameAdded]

/-- Equal first mentions are printed equally. -/
theorem buildModel_congr (catalogText : Option String) (dataClass : String) (allFields : Bool)
    {identifiers others : List String} (same : others.eraseDups = identifiers.eraseDups) :
    buildModel catalogText dataClass allFields others =
      buildModel catalogText dataClass allFields identifiers := by
  simp only [buildModel, assemble_congr _ dataClass allFields same]

/-! ### The sections of a data class -/

/-- The root types on which some operation lives. -/
def rootsOf (operations : List Operation) : List Root :=
  Root.all.filter fun root => ∃ operation ∈ operations, operation.root = root

theorem forall₂_of_mapM {α β : Type} {function : α → Except Failure β} {members : List α}
    {results : List β} (success : members.mapM function = .ok results) :
    List.Forall₂ (fun member result => function member = .ok result) members results := by
  induction members generalizing results with
  | nil =>
    cases success
    exact .nil
  | cons first others inductionHypothesis =>
    simp only [List.mapM_cons, Failure.bind_eq_ok_iff] at success
    obtain ⟨result, ofFirst, further, ofOthers, ⟨⟩⟩ := success
    exact .cons ofFirst (inductionHypothesis ofOthers)

/-- Of the root types those have fields on which some operation lives. -/
theorem filter_rootTypes {complete type : ModelType} {dataType : Name}
    (named : dataType.text = complete.model.typeName) {operations : List Operation}
    (kept : List.Forall₂ complete.IsKept operations.eraseDups type.operations.members) :
    ((Root.all.map fun root => type.applyOperations root (.empty root.name wiring)).filter
        fun root => !root.fields.isEmpty) =
      (rootsOf operations).map fun root =>
        type.applyOperations root (.empty root.name wiring) := by
  rw [List.filter_map, rootsOf]
  refine congrArg (List.map _) (List.filter_congr fun root _ => ?_)
  have hasFields := ModelType.isEmpty_fields_applyOperations_iff named
    (nodup_eraseDups operations) kept root wiring
  simp only [List.mem_eraseDups] at hasFields
  rw [Bool.eq_iff_iff, decide_eq_true_iff, ← hasFields]
  exact Iff.of_eq (Bool.not_eq_true' _)

/-- A type is printed before the root types on which its operations live. -/
theorem sections_of_isOfClass {dataClass : String} {complete type : ModelType}
    (isOfClass : IsOfClass dataClass complete) {operations : List Operation}
    (added : complete.addOperations (operations.map Operation.identifier) = .ok type)
    {texts : List String} (success : sections type = .ok texts) :
    ∃ main, type.build = .ok main ∧ main.definition.name.text = Spelling.unqualified dataClass ∧
      render main = printed main.definition ∧
      texts = render main :: (rootsOf operations).map fun root =>
        printed (root.definition main.definition.name operations.eraseDups) := by
  simp only [sections, Failure.bind_eq_ok_iff] at success
  obtain ⟨main, isMain, built, isBuilt, ⟨⟩⟩ := success
  obtain ⟨entries, rfl, -⟩ := ModelType.exists_of_addOperations added
  have named := (ObjectType.build_eq_ok_iff.mp isMain).1.trans isOfClass.named
  refine ⟨main, isMain, named, render_of_build isOfClass.shares isMain, ?_⟩
  have sameName := named.trans isOfClass.sameName.symm
  have kept := ModelType.operations_of_addOperations isOfClass.standard isOfClass.noOperations added
  rw [filter_rootTypes sameName kept] at isBuilt
  have builtRoots := forall₂_of_mapM isBuilt
  rw [List.forall₂_map_left_iff] at builtRoots
  rw [List.map_cons]
  refine congrArg (List.cons (render main)) (map_eq_map_of_forall₂ ?_ builtRoots).symm
  intro root built isBuilt
  have shares := ModelType.sharesWiring_applyOperations kept root
  rw [isOfClass.shares.ofType] at shares
  rw [render_of_build shares isBuilt, ModelType.definition_of_build_applyOperations sameName
    (nodup_eraseDups operations) kept root wiring isBuilt]

/-- The query type is printed if something is read, and the mutation type if something is
deleted. -/
theorem rootsOf_eq {operations : List Operation} {identifiers : List String}
    (identified : identifiers = operations.map Operation.identifier) :
    rootsOf operations =
      (if "read" ∈ identifiers ∨ "readOne" ∈ identifiers then [Root.query] else []) ++
        if "delete" ∈ identifiers then [Root.mutation] else [] := by
  have given : ∀ operation : Operation,
      operation.identifier ∈ identifiers ↔ operation ∈ operations := by
    rw [identified]
    exact fun operation => List.mem_map_of_injective Operation.identifier_injective
  have onQuery : (∃ operation ∈ operations, operation.root = .query) ↔
      "read" ∈ identifiers ∨ "readOne" ∈ identifiers := by
    constructor
    · rintro ⟨operation, isGiven, lives⟩
      cases operation with
      | read => exact Or.inl ((given .read).mpr isGiven)
      | readOne => exact Or.inr ((given .readOne).mpr isGiven)
      | delete => cases lives
    · rintro (isGiven | isGiven)
      · exact ⟨.read, (given .read).mp isGiven, rfl⟩
      · exact ⟨.readOne, (given .readOne).mp isGiven, rfl⟩
  have onMutation : (∃ operation ∈ operations, operation.root = .mutation) ↔
      "delete" ∈ identifiers := by
    constructor
    · rintro ⟨operation, isGiven, lives⟩
      cases operation with
      | read | readOne => cases lives
      | delete => exact (given .delete).mpr isGiven
    · exact fun isGiven => ⟨.delete, (given .delete).mp isGiven, rfl⟩
  rw [rootsOf, Root.all, List.filter_cons, List.filter_cons, List.filter_nil]
  simp only [decide_eq_true_eq, onQuery, onMutation]
  split <;> split <;> rfl

/-- What is printed for a data class, where `main` is built from its type. The identifiers are those
of operations; each root type is printed on which one of these lives, with a field for each of them
in the order in which they come first; and behind each definition stands a line for every field. -/
structure PrintsSections (identifiers : List String) (operations : List Operation)
    (main : BuiltObject) (output : String) : Prop where
  identified : identifiers = operations.map Operation.identifier
  rendered : render main = printed main.definition
  output : output = String.intercalate "\n" (render main ::
    ((if "read" ∈ identifiers ∨ "readOne" ∈ identifiers then
        [printed (Root.query.definition main.definition.name operations.eraseDups)] else []) ++
      if "delete" ∈ identifiers then
        [printed (Root.mutation.definition main.definition.name operations.eraseDups)] else []))

/-- What is printed for a data class: the sections of its type. -/
theorem exists_of_buildModel {catalogText : Option String} {dataClass : String} {allFields : Bool}
    {identifiers : List String} {output : String}
    (success : buildModel catalogText dataClass allFields identifiers = .ok output) :
    ∃ catalog type main operations, catalogText.bind Catalog.parse = some catalog ∧
      assemble catalog dataClass allFields identifiers = .ok type ∧ type.build = .ok main ∧
      main.definition.name.text = Spelling.unqualified dataClass ∧
      PrintsSections identifiers operations main output := by
  unfold buildModel at success
  split at success
  · cases success
  · next text =>
    split at success
    · cases success
    · next catalog parsed =>
      simp only [refusing_eq_ok_iff, Failure.bind_eq_ok_iff] at success
      obtain ⟨type, assembled, texts, isSections, ⟨⟩⟩ := success
      obtain ⟨complete, isOfClass, added⟩ := exists_isOfClass_of_assemble assembled
      obtain ⟨operations, identified⟩ :=
        ModelType.exists_operations_of_addOperations isOfClass.standard added
      rw [identified] at added
      obtain ⟨main, isMain, named, rendered, rfl⟩ :=
        sections_of_isOfClass isOfClass added isSections
      refine ⟨catalog, type, main, operations, parsed, assembled, isMain, named, identified,
        rendered, ?_⟩
      rw [rootsOf_eq identified, List.map_append]
      simp only [apply_ite (List.map _), List.map_cons, List.map_nil]

/-- The command for a data class prints the type of the class and the root types of its operations,
for lists of operations with the same first mentions the same. The command for a field prints a type
with this field. All fields are resolved by the standard function. -/
theorem commands_printSections :
    (∀ (catalogText : Option String) (dataClass : String) (allFields : Bool)
        (identifiers : List String) (output : String),
      buildModel catalogText dataClass allFields identifiers = .ok output →
      (∃ catalog type main operations, catalogText.bind Catalog.parse = some catalog ∧
        assemble catalog dataClass allFields identifiers = .ok type ∧ type.build = .ok main ∧
        main.definition.name.text = Spelling.unqualified dataClass ∧
        PrintsSections identifiers operations main output) ∧
      ∀ others : List String, others.eraseDups = identifiers.eraseDups →
        buildModel catalogText dataClass allFields others = .ok output) ∧
    ∀ definition config typeName output : String,
      buildField definition config typeName = .ok output →
      ∃ (type : ObjectDefinition) (field : FieldDefinition), type.name.text = typeName ∧
        type.fields = [field] ∧
        (∃ arguments, Field.nameAndArguments definition = .ok (field.name, arguments)) ∧
        output = type.sdl ++ standardLine type.name field.name := by
  refine ⟨fun catalogText dataClass allFields identifiers output success =>
    ⟨exists_of_buildModel success, fun others same => ?_⟩, fun _ _ _ _ => exists_of_buildField⟩
  exact (buildModel_congr catalogText dataClass allFields same).trans success

/-- What is printed for posts that are deleted and read. -/
def postSections : String :=
  "type Post \x7b\n  id: ID\n\x7d\n" ++
  "# Post.id => DefaultResolver::defaultFieldResolver\n\n" ++
  "type Query \x7b\n  readPosts(limit: Int, offset: Int): [Post!]!\n\x7d\n" ++
  "# Query.readPosts => DefaultResolver::defaultFieldResolver\n\n" ++
  "type Mutation \x7b\n  deletePosts(ids: [ID!]!): [ID]!\n\x7d\n" ++
  "# Mutation.deletePosts => DefaultResolver::defaultFieldResolver\n"

theorem eq_ok_of_toOption {ε α : Type} {result : Except ε α} {value : α}
    (isValue : result.toOption = some value) : result = .ok value := by
  cases result with
  | error failure => cases isValue
  | ok same =>
    cases isValue
    rfl

/-- A deletion that is given again is not printed again; a field has a type of its own. -/
theorem commands_printSections_post :
    let catalog := some "\x7b\"Post\": \x7b\x7d\x7d"
    buildModel catalog "Post" false ["delete", "read", "delete"] = .ok postSections ∧
      (∃ operations main,
        PrintsSections ["delete", "read", "delete"] operations main postSections) ∧
      buildModel catalog "Post" false ["delete", "read"] = .ok postSections ∧
      ∃ (type : ObjectDefinition) (field : FieldDefinition), type.name.text = "Post" ∧
        type.fields = [field] ∧
        buildField "title" "\"String\"" "Post" =
          .ok (type.sdl ++ standardLine type.name field.name) := by
  intro catalog
  have modelSuccess : buildModel catalog "Post" false ["delete", "read", "delete"] =
      .ok postSections := eq_ok_of_toOption (by decide +kernel)
  have fieldSuccess : buildField "title" "\"String\"" "Post" =
      .ok ("type Post \x7b\n  title: String\n\x7d\n" ++
        "# Post.title => DefaultResolver::defaultFieldResolver\n") :=
    eq_ok_of_toOption (by decide +kernel)
  obtain ⟨⟨-, -, main, operations, -, -, -, -, prints⟩, congruent⟩ :=
    commands_printSections.1 _ _ _ _ _ modelSuccess
  obtain ⟨type, field, named, fields, -, output⟩ :=
    commands_printSections.2 _ _ _ _ fieldSuccess
  exact ⟨modelSuccess, ⟨operations, main, prints⟩, congruent ["delete", "read"] (by decide),
    type, field, named, fields, fieldSuccess.trans (congrArg Except.ok output)⟩

end SchemaAssembly.CommandLine
