/-
This file follows the fields of a data class from its catalog to the type that is built. A model
lists its fields by name and type, and a field that is listed with a valid name and a type that can
be read goes through every stage: it is made without problems, keeps its place among fields with
other names, is defined as it is listed, and is bound to the standard function. As the spelling in
the schema gives valid names, all fields of a class arrive in the type, in the order in which the
catalog lists them; only the place of the identifier is taken by the field with which every type
starts.
-/

import Mathlib.Data.Set.List
import SchemaAssembly.Model.ModelType
import SchemaAssembly.Proofs.Catalog.Inheritance
import SchemaAssembly.Proofs.Field.Configuration
import SchemaAssembly.Proofs.Grammar.Signature
import SchemaAssembly.Proofs.Grammar.TypeText
import SchemaAssembly.Proofs.ObjectType.Reporting

namespace SchemaAssembly

/-! ### Fields as a model lists them -/

/-- A field as a model lists it: a name, with a text that is read as a type. -/
structure ListedField where
  name : Name
  text : String
  type : TypeRef
  read : TypeRef.parse text = .ok type

namespace ListedField

/-- The entry of the list. -/
def entry (listed : ListedField) : String × String :=
  (listed.name.text, listed.text)

/-- The field that is made from the entry. -/
def field (defaultResolver : Target) (wiring : Wiring) (listed : ListedField) : Field :=
  { Field.plain listed.name wiring with
    type? := some (.written listed.text)
    defaultResolver := some defaultResolver }

/-- The definition of that field. -/
def definition (listed : ListedField) : FieldDefinition :=
  ⟨none, listed.name, [], listed.type⟩

/-- Names and types that are valid make up fields that are listed. -/
theorem exists_map_entry {entries : List (String × String)}
    (valid : ∀ entry ∈ entries, isName entry.1 = true ∧
      ∃ type, TypeRef.parse entry.2 = .ok type) :
    ∃ listed : List ListedField, listed.map entry = entries := by
  suffices entries ∈ Set.range (List.map entry) from this
  rw [Set.range_list_map]
  intro given member
  obtain ⟨named, type, read⟩ := valid given member
  exact ⟨⟨⟨given.1.toList, named⟩, given.2, type, read⟩, Prod.ext String.ofList_toList rfl⟩

theorem map_fst_of_map_entry {listed : List ListedField} {entries : List (String × String)}
    (all : listed.map entry = entries) :
    entries.map Prod.fst = listed.map fun field => field.name.text := by
  rw [← all, List.map_map]
  rfl

theorem resolvedType_field (defaultResolver : Target) (wiring : Wiring) (listed : ListedField) :
    (listed.field defaultResolver wiring).resolvedType = .ok listed.type :=
  TypeRef.resolve_written_of_parse listed.read _

/-- A field that the standard function resolves is defined as it is listed. -/
theorem toDefinition_field (listed : ListedField) :
    (listed.field .standard (.start [.standard])).toDefinition = .ok listed.definition := by
  have noProblems : (listed.field .standard (.start [.standard])).problems = [] := by
    rw [Field.problems, Field.typeProblems_eq_nil_iff.mpr ⟨_, listed.resolvedType_field _ _⟩]
    rfl
  exact Field.toDefinition_eq_ok_iff.mpr
    ⟨noProblems, rfl, rfl, listed.resolvedType_field _ _, .nil⟩

theorem binding_field (listed : ListedField) (owner : String) :
    (listed.field .standard (.start [.standard])).binding owner =
      .ok (.ofReference ⟨.standard⟩) := rfl

end ListedField

namespace ModelType

/-! ### Adding what is listed -/

/-- The type with some listed fields added, each under its name. -/
def withListed (type : ModelType) (listed : List ListedField) : ModelType :=
  { type with
    objectType := { type.objectType with
      fields := type.objectType.fields.insertAll
        (listed.map (ListedField.field type.model.defaultResolver type.objectType.wiring)) } }

/-- The model has nothing to add to the type of a field that is listed, only its default
resolver. -/
theorem makeField_entry (type : ModelType) (listed : ListedField) :
    type.makeField listed.entry.1 (.type (.written listed.entry.2)) =
      .ok (listed.field type.model.defaultResolver type.objectType.wiring) := by
  have made : Field.make listed.name.text (.type (.written listed.text)) type.objectType.wiring =
      .ok { Field.plain listed.name type.objectType.wiring with
        type? := some (.written listed.text) } :=
    Field.make_eq_ok_iff.mpr ⟨_, _, Field.nameAndArguments_text listed.name, rfl⟩
  have notBlank := TypeRef.isBlank_of_parse listed.read
  rw [makeField, ListedField.entry, made]
  simp only [withModelType, Option.all_some, ConfiguredType.isBlank, notBlank]
  rfl

/-- A listed field with a new name is added at the end. -/
theorem addField_entry (type : ModelType) (listed : ListedField)
    (absent : listed.name.text ∉ type.objectType.fields.keys) :
    type.addField listed.entry.1 (.type (.written listed.entry.2)) =
      .ok (type.withListed [listed]) := by
  have notFound : type.objectType.fields.find?
      (listed.field type.model.defaultResolver type.objectType.wiring).label = none :=
    Keyed.find?_eq_none_iff.mpr absent
  rw [addField, makeField_entry]
  simp only [ObjectType.addField, notFound]
  rfl

/-- Listed fields with new names, all different, are added without problems. -/
theorem addTyped_map_entry (type : ModelType) (listed : List ListedField)
    (distinct : (type.objectType.fields.keys ++ listed.map fun field => field.name.text).Nodup) :
    type.addTyped (listed.map ListedField.entry) = (type.withListed listed, none) := by
  induction listed generalizing type with
  | nil => rfl
  | cons first others inductionHypothesis =>
    have absent : first.name.text ∉ type.objectType.fields.keys := fun present =>
      (List.nodup_append.mp distinct).2.2 _ present _ List.mem_cons_self rfl
    have keys : (type.withListed [first]).objectType.fields.keys =
        type.objectType.fields.keys ++ [first.name.text] :=
      Keyed.keys_insert_of_not_mem type.objectType.fields _ absent
    rw [List.map_cons, addTyped, addField_entry type first absent]
    dsimp only
    rw [inductionHypothesis (type.withListed [first]) ?_]
    · rfl
    · rw [keys, ← List.append_cons]
      exact distinct

theorem members_withListed (type : ModelType) (listed : List ListedField)
    (distinct : (type.objectType.fields.keys ++ listed.map fun field => field.name.text).Nodup) :
    (type.withListed listed).objectType.fields.members = type.objectType.fields.members ++
      listed.map (ListedField.field type.model.defaultResolver type.objectType.wiring) := by
  refine Keyed.members_insertAll_of_nodup type.objectType.fields _ ?_
  rw [List.map_map]
  exact distinct

theorem keys_withListed (type : ModelType) (listed : List ListedField)
    (distinct : (type.objectType.fields.keys ++ listed.map fun field => field.name.text).Nodup) :
    (type.withListed listed).objectType.fields.keys =
      type.objectType.fields.keys ++ listed.map fun field => field.name.text := by
  rw [Keyed.keys, members_withListed type listed distinct, List.map_append, List.map_map]
  rfl

/-! ### All fields of a model -/

/-- The fields of the model that a type does not have yet. -/
def missing (type : ModelType) : List (String × String) :=
  type.model.allFields.members.filter fun field => !type.objectType.hasField field.1

theorem not_mem_keys_of_mem_missing {type : ModelType} {entry : String × String}
    (isMissing : entry ∈ type.missing) : entry.1 ∉ type.objectType.fields.keys := by
  rw [← Keyed.contains_iff_mem_keys, Bool.not_eq_true, ← Bool.not_eq_true']
  exact (List.mem_filter.mp isMissing).2

/-- What a type is missing has names that are new and all different. -/
theorem nodup_keys_append_missing (type : ModelType) :
    (type.objectType.fields.keys ++ type.missing.map Prod.fst).Nodup := by
  refine List.nodup_append.mpr ⟨type.objectType.fields.distinct, ?_, ?_⟩
  · exact (List.filter_sublist.map Prod.fst).nodup type.model.allFields.distinct
  · intro present isKey new isNew same
    obtain ⟨entry, isMissing, rfl⟩ := List.mem_map.mp isNew
    exact not_mem_keys_of_mem_missing isMissing (same ▸ isKey)

theorem nodup_keys_append_listed {type : ModelType} {listed : List ListedField}
    (all : listed.map ListedField.entry = type.missing) :
    (type.objectType.fields.keys ++ listed.map fun field => field.name.text).Nodup :=
  ListedField.map_fst_of_map_entry all ▸ type.nodup_keys_append_missing

/-- A type that is missing nothing is left as it is. -/
theorem addAllFields_of_missing_eq_nil {type : ModelType} (complete : type.missing = []) :
    type.addAllFields = (type, none) := by
  rw [addAllFields]
  exact congrArg type.addTyped complete

/-- Once all that was missing has been added, nothing is. -/
theorem missing_withListed {type : ModelType} {listed : List ListedField}
    (all : listed.map ListedField.entry = type.missing) :
    (type.withListed listed).missing = [] := by
  refine List.eq_nil_iff_forall_not_mem.mpr fun entry stillMissing => ?_
  have absent := not_mem_keys_of_mem_missing stillMissing
  rw [keys_withListed type listed (nodup_keys_append_listed all),
    ← ListedField.map_fst_of_map_entry all, List.mem_append, not_or] at absent
  have isMissing : entry ∈ type.missing := by
    refine List.mem_filter.mpr ⟨(List.mem_filter.mp stillMissing).1, ?_⟩
    rw [Bool.not_eq_true', ← Bool.not_eq_true, ObjectType.hasField, Keyed.contains_iff_mem_keys]
    exact absent.1
  exact absent.2 (List.mem_map_of_mem isMissing)

/-- All fields that a type is missing are added, in their order, and to add all fields once more
changes nothing. -/
theorem addAllFields_of_valid {type : ModelType}
    (valid : ∀ entry ∈ type.missing, isName entry.1 = true ∧
      ∃ read, TypeRef.parse entry.2 = .ok read) :
    ∃ listed, listed.map ListedField.entry = type.missing ∧
      type.addAllFields = (type.withListed listed, none) ∧
      (type.withListed listed).objectType.fields.members = type.objectType.fields.members ++
        listed.map (ListedField.field type.model.defaultResolver type.objectType.wiring) ∧
      (type.withListed listed).addAllFields = (type.withListed listed, none) := by
  obtain ⟨listed, all⟩ := ListedField.exists_map_entry valid
  have distinct := nodup_keys_append_listed all
  have added : type.addTyped type.missing = (type.withListed listed, none) :=
    all ▸ type.addTyped_map_entry listed distinct
  exact ⟨listed, all, added, type.members_withListed listed distinct,
    addAllFields_of_missing_eq_nil (missing_withListed all)⟩

/-- A type starts with the default fields of its model. -/
theorem ofModel_of_map_entry (model : Model) (wiring : Wiring) (listed : List ListedField)
    (defaults : listed.map ListedField.entry = model.defaultFields.members) :
    ofModel model wiring =
      .ok ((⟨model, .empty model.typeName wiring, ∅⟩ : ModelType).withListed listed) := by
  have distinct : (listed.map fun field => field.name.text).Nodup :=
    ListedField.map_fst_of_map_entry defaults ▸ model.defaultFields.distinct
  have added := addTyped_map_entry ⟨model, .empty model.typeName wiring, ∅⟩ listed distinct
  rw [ofModel, ← defaults, added]

end ModelType

/-! ### Building -/

/-- A type of listed fields that the standard function resolves is built from their definitions. -/
theorem ObjectType.build_of_listed (type : ObjectType) (listed : List ListedField)
    (named : isName type.name = true) (nonempty : listed ≠ [])
    (members : type.fields.members =
      listed.map (ListedField.field .standard (.start [.standard]))) :
    ∃ built, type.build = .ok built ∧
      built.definition.fields = listed.map ListedField.definition ∧
      built.bindings.members =
        listed.map fun field => (field.name.text, .ofReference ⟨.standard⟩) := by
  have encodable : ∀ field ∈ type.fields.members, field.IsEncodable type.name := by
    intro field isField
    rw [members] at isField
    obtain ⟨given, -, rfl⟩ := List.mem_map.mp isField
    have noProblems := (Field.toDefinition_eq_ok_iff.mp given.toDefinition_field).1
    exact ⟨Field.validate_eq_ok_iff.mpr noProblems, _, given.binding_field type.name⟩
  have hasField : type.fields.isEmpty = false := by
    rw [Keyed.isEmpty, members, List.isEmpty_eq_false_iff, ne_eq, List.map_eq_nil_iff]
    exact nonempty
  obtain ⟨built, success⟩ := exists_build_iff.mpr
    (buildProblems_eq_nil_iff.mpr ⟨named, hasField, encodable⟩)
  have defined := fields_of_build success
  have bound := bindings_of_build success
  rw [members, List.forall₂_map_left_iff] at defined bound
  refine ⟨built, success, ?_, ?_⟩
  · refine (map_eq_of_forall₂ (fun field definition isDefined => ?_) defined).symm
    rw [field.toDefinition_field, Except.ok.injEq] at isDefined
    exact isDefined
  · refine (map_eq_of_forall₂ (fun field entry isBound => ?_) bound).symm
    obtain ⟨sameLabel, sameBinding⟩ := isBound
    rw [field.binding_field, Except.ok.injEq] at sameBinding
    exact Prod.ext sameLabel.symm sameBinding

/-- A field is defined as it is listed: under its name, with the type that is read from the text,
without arguments or a description. -/
structure FieldDefinition.IsAsListed (entry : String × String) (definition : FieldDefinition) :
    Prop where
  named : definition.name.text = entry.1
  typed : TypeRef.parse entry.2 = .ok definition.type
  plain : definition.arguments = []
  undescribed : definition.description = none

namespace ModelType

/-- The field with which every type of a catalog starts. -/
def identifier : ListedField where
  name := ⟨"id".toList, Eq.refl true⟩
  text := "ID"
  type := .named ⟨"ID".toList, Eq.refl true⟩ false
  read := TypeRef.parse_text (.named ⟨"ID".toList, Eq.refl true⟩ false)

/-- The type of a class before any fields are added to it. -/
structure StartsFrom (catalog : Catalog) (dataClass : String) (start : ModelType) : Prop where
  named : start.objectType.name = Spelling.unqualified dataClass
  wired : start.objectType.wiring = .start [.standard]
  resolved : start.model.defaultResolver = .standard
  members : start.objectType.fields.members = [identifier.field .standard (.start [.standard])]
  missing : start.missing =
    (catalog.schemaFields dataClass).members.filter fun entry => entry.1 ≠ "id"

/-- Every class of a catalog has a model, with a type that has the identifier and nothing else. -/
theorem exists_startsFrom {catalog : Catalog} {dataClass : String}
    (known : catalog.hasClass dataClass = true) :
    ∃ model start, Model.ofCatalog dataClass catalog .standard .standard = .ok model ∧
      ofModel model (.start [.standard]) = .ok start ∧ start.StartsFrom catalog dataClass := by
  refine ⟨_, _, if_pos known, ofModel_of_map_entry _ _ [identifier] rfl, ?_⟩
  refine ⟨rfl, rfl, rfl, rfl, List.filter_congr fun entry _ => ?_⟩
  show (!(["id"].contains entry.1)) = decide (entry.1 ≠ "id")
  simp

/-- The type of a class is assembled and built if the class and all that it and its ancestors
declare have valid names, and the types that the catalog lists can be read. It has the name of the
class, and its fields are the identifier and then those that the catalog lists, in their order, each
defined as it is listed and bound to the standard function. To add all fields once more changes
nothing. -/
theorem build_addAllFields_ofCatalog (catalog : Catalog) (dataClass : String)
    (known : catalog.hasClass dataClass = true)
    (named : isName (Spelling.unqualified dataClass) = true)
    (declared : ∀ ancestor ∈ catalog.lineage dataClass, ∀ name ∈ ancestor.2.names,
      isName name = true)
    (typed : ∀ entry ∈ (catalog.schemaFields dataClass).members,
      ∃ type, TypeRef.parse entry.2 = .ok type) :
    ∃ model start complete built,
      Model.ofCatalog dataClass catalog .standard .standard = .ok model ∧
      ofModel model (.start [.standard]) = .ok start ∧
      start.addAllFields = (complete, none) ∧
      complete.build = .ok built ∧
      built.definition.name.text = Spelling.unqualified dataClass ∧
      List.Forall₂ FieldDefinition.IsAsListed
        (("id", "ID") ::
          (catalog.schemaFields dataClass).members.filter fun entry => entry.1 ≠ "id")
        built.definition.fields ∧
      built.bindings.members =
        built.definition.fieldNames.map (fun name => (name, .ofReference ⟨.standard⟩)) ∧
      complete.addAllFields = (complete, none) := by
  obtain ⟨model, start, isModel, isStart, starts⟩ := exists_startsFrom known
  have valid : ∀ entry ∈ start.missing, isName entry.1 = true ∧
      ∃ type, TypeRef.parse entry.2 = .ok type := by
    intro entry isMissing
    rw [starts.missing] at isMissing
    have isListed := List.mem_of_mem_filter isMissing
    exact ⟨Catalog.isName_of_mem_schemaFields declared isListed, typed entry isListed⟩
  obtain ⟨listed, all, added, members, onceMore⟩ := addAllFields_of_valid valid
  rw [starts.members, starts.resolved, starts.wired] at members
  have ofClass : (start.withListed listed).objectType.name = Spelling.unqualified dataClass :=
    starts.named
  obtain ⟨built, success, fields, bindings⟩ :=
    ObjectType.build_of_listed _ (identifier :: listed) (ofClass ▸ named) (List.cons_ne_nil _ _)
      members
  refine ⟨model, start, start.withListed listed, built, isModel, isStart, added, success,
    ?_, ?_, ?_, onceMore⟩
  · exact (ObjectType.build_eq_ok_iff.mp success).1.trans ofClass
  · have asListed : List.Forall₂ FieldDefinition.IsAsListed
        ((identifier :: listed).map ListedField.entry)
        ((identifier :: listed).map ListedField.definition) := by
      rw [List.forall₂_map_left_iff, List.forall₂_map_right_iff, List.forall₂_same]
      exact fun field _ => ⟨rfl, field.read, rfl, rfl⟩
    rw [fields, ← starts.missing, ← all]
    exact asListed
  · rw [bindings, ObjectDefinition.fieldNames, fields, List.map_map, List.map_map]
    rfl

/-- The type of posts has the fields of pages and of posts, but not the score, which has no type. -/
theorem build_addAllFields_post :
    ∃ model start complete built,
      Model.ofCatalog "Blog\\Post" Catalog.blog .standard .standard = .ok model ∧
      ofModel model (.start [.standard]) = .ok start ∧
      start.addAllFields = (complete, none) ∧
      complete.build = .ok built ∧
      built.definition.name.text = "Post" ∧
      built.definition.fieldNames =
        ["id", "className", "created", "lastEdited", "title", "urlSegment", "authorID", "author",
          "comments"] := by
  have members : (Catalog.blog.schemaFields "Blog\\Post").members =
      [("id", "ID"), ("className", "String"), ("created", "String"), ("lastEdited", "String"),
        ("title", "String"), ("urlSegment", "String"), ("authorID", "ID"), ("author", "Member"),
        ("comments", "[Comment]")] := by
    rw [Catalog.schemaFields, Catalog.fields_post]
    decide +kernel
  have declared : ∀ ancestor ∈ Catalog.blog.lineage "Blog\\Post", ∀ name ∈ ancestor.2.names,
      isName name = true := by
    rw [Catalog.lineage_post]
    decide +kernel
  have typed : ∀ entry ∈ (Catalog.blog.schemaFields "Blog\\Post").members,
      ∃ type, TypeRef.parse entry.2 = .ok type := by
    let types : List TypeRef :=
      [.named ⟨"ID".toList, by decide⟩ false, .named ⟨"String".toList, by decide⟩ false,
        .named ⟨"Member".toList, by decide⟩ false,
        .list (.named ⟨"Comment".toList, by decide⟩ false) false]
    have areTexts : ∀ entry ∈ (Catalog.blog.schemaFields "Blog\\Post").members,
        entry.2 ∈ types.map TypeRef.text := by
      rw [members]
      decide +kernel
    intro entry isListed
    obtain ⟨type, -, sameText⟩ := List.mem_map.mp (areTexts entry isListed)
    exact ⟨type, sameText ▸ type.parse_text⟩
  obtain ⟨model, start, complete, built, isModel, isStart, added, success, named, fields, -, -⟩ :=
    build_addAllFields_ofCatalog Catalog.blog "Blog\\Post" rfl (by decide) declared typed
  refine ⟨model, start, complete, built, isModel, isStart, added, success, named, ?_⟩
  rw [members] at fields
  exact (map_eq_map_of_forall₂ (fun _ _ isAsListed => isAsListed.named.symm) fields).symm

end ModelType

end SchemaAssembly
