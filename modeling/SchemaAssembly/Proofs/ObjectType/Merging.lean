/-
This file says what an object type holds after any sequence of fields has been added to it. The
fields of one name are merged in the order in which they came: the first of them stays as it is,
in its place, and takes over the arguments of the others, where places go to the first argument of
a name and contents to the last. So whatever has been added already changes nothing when it is
added again; neither do the operations of a model, which are added in this way to the root types.
-/

import SchemaAssembly.Model.ModelType
import SchemaAssembly.Proofs.ObjectType.Lookup

namespace SchemaAssembly

/-! ### Fields of one name -/

namespace Field

/-- Taking over the arguments of one field after another is taking over those of all of them. -/
theorem foldl_merge (field : Field) (others : List Field) :
    others.foldl merge field =
      { field with
        arguments := field.arguments.insertAll
          (others.flatMap fun other => other.arguments.members) } := by
  induction others generalizing field with
  | nil => rfl
  | cons first others inductionHypothesis =>
    rw [List.foldl_cons, inductionHypothesis, List.flatMap_cons, Keyed.insertAll_append]
    rfl

/-- Which of three fields are merged first makes no difference. -/
theorem merge_assoc (first second third : Field) :
    (first.merge second).merge third = first.merge (second.merge third) := by
  unfold merge
  rw [Keyed.insertAll_members_insertAll]

theorem foldl_merge_self (field : Field) (others : List Field) :
    others.foldl merge (others.foldl merge field) = others.foldl merge field := by
  rw [foldl_merge, foldl_merge, Keyed.insertAll_insertAll_self]

theorem merge_self (field : Field) : field.merge field = field := by
  have sameArguments : field.arguments.insertAll field.arguments.members = field.arguments := by
    have again := (Keyed.empty : Keyed Argument.name).insertAll_insertAll_self
      field.arguments.members
    rwa [← Keyed.ofList, Keyed.ofList_members] at again
  rw [merge, sameArguments]

theorem find?_foldl_merge (field : Field) (others : List Field) (name : String) :
    (others.foldl merge field).arguments.find? name =
      (field :: others).reverse.findSome? fun member => member.arguments.find? name := by
  induction others generalizing field with
  | nil => simp
  | cons first others inductionHypothesis =>
    have merged : (field.merge first).arguments.find? name =
        (first.arguments.find? name).or (field.arguments.find? name) :=
      Keyed.find?_insertAll_members field.arguments first.arguments name
    rw [List.foldl_cons, inductionHypothesis]
    simp only [List.reverse_cons, List.findSome?_append, List.findSome?_singleton, merged,
      Option.or_assoc]

theorem keys_foldl_merge (field : Field) (others : List Field) :
    (others.foldl merge field).arguments.keys =
      ((field :: others).flatMap fun member => member.arguments.keys).eraseDups := by
  have allMembers : field.arguments.insertAll
      (others.flatMap fun other => other.arguments.members) =
        Keyed.ofList ((field :: others).flatMap fun member => member.arguments.members) := by
    rw [List.flatMap_cons, Keyed.ofList, Keyed.insertAll_append, ← Keyed.ofList,
      Keyed.ofList_members]
  rw [foldl_merge, allMembers, Keyed.keys_ofList, List.map_flatMap]
  rfl

/-- A field is what others of its name come to: it is the first of them but for its arguments.
Among these each name has the place where it came first and the content with which it came last. -/
structure IsUnionOf (field first : Field) (others : List Field) : Prop where
  sameAttributes : field = { first with arguments := field.arguments }
  order : field.arguments.keys =
    ((first :: others).flatMap fun member => member.arguments.keys).eraseDups
  content : ∀ name, field.arguments.find? name =
    (first :: others).reverse.findSome? fun member => member.arguments.find? name

theorem isUnionOf_foldl_merge (first : Field) (others : List Field) :
    (others.foldl merge first).IsUnionOf first others where
  sameAttributes := by rw [foldl_merge]
  order := keys_foldl_merge first others
  content := find?_foldl_merge first others

end Field

/-! ### Fields of all names -/

namespace ObjectType

/-- Adds fields, one after the other. -/
def addAll (type : ObjectType) (added : List Field) : ObjectType :=
  added.foldl addField type

/-- The fields that hold a name, in order: the field of the type, if there is one, and then those
that are added. -/
def holders (type : ObjectType) (added : List Field) (name : String) : List Field :=
  (type.fields.find? name).toList ++ added.filter fun field => field.label = name

/-- What the fields of one name come to. -/
def merged : List Field → Option Field
  | [] => none
  | first :: others => some (others.foldl Field.merge first)

theorem merged_eq_none_iff {fields : List Field} : merged fields = none ↔ fields = [] := by
  cases fields <;> simp [merged]

theorem exists_of_merged_eq_some {fields : List Field} {field : Field}
    (isMerged : merged fields = some field) :
    ∃ first others, fields = first :: others ∧ field.IsUnionOf first others := by
  cases fields with
  | nil => cases isMerged
  | cons first others =>
    cases isMerged
    exact ⟨first, others, rfl, Field.isUnionOf_foldl_merge first others⟩

theorem addAll_cons (type : ObjectType) (first : Field) (others : List Field) :
    type.addAll (first :: others) = (type.addField first).addAll others := rfl

theorem addAll_append (type : ObjectType) (first second : List Field) :
    type.addAll (first ++ second) = (type.addAll first).addAll second :=
  List.foldl_append

/-- Adding fields changes a type in nothing but its fields. -/
theorem addField_eq (type : ObjectType) (field : Field) :
    type.addField field = { type with fields := (type.addField field).fields } := by
  unfold addField
  split <;> rfl

theorem addAll_eq (type : ObjectType) (added : List Field) :
    type.addAll added = { type with fields := (type.addAll added).fields } := by
  induction added generalizing type with
  | nil => rfl
  | cons first others inductionHypothesis =>
    rw [addAll_cons, inductionHypothesis, addField_eq]

/-- An added field goes where a write under its name would go. -/
theorem keys_addField (type : ObjectType) (field : Field) :
    (type.addField field).fields.keys = (type.fields.insert field).keys := by
  unfold addField
  split
  · next present found =>
    have sameLabel : present.label = field.label := Keyed.key_of_find?_eq_some found
    refine (Keyed.keys_insert type.fields (present.merge field)).trans ?_
    rw [Keyed.keys_insert, ← sameLabel]
    rfl
  · rfl

/-- Names stay in the order in which they came first. -/
theorem keys_addAll (type : ObjectType) (added : List Field) :
    (type.addAll added).fields.keys = type.fields.keys ++
      ((added.map Field.label).filter fun name => name ∉ type.fields.keys).eraseDups := by
  have asWritten : ∀ container : Keyed Field.label, container.keys = type.fields.keys →
      (type.addAll added).fields.keys = (container.insertAll added).keys := by
    induction added generalizing type with
    | nil => exact fun _ same => same.symm
    | cons first others inductionHypothesis =>
      intro container same
      rw [addAll_cons, Keyed.insertAll_cons]
      refine inductionHypothesis _ _ ?_
      rw [keys_addField, Keyed.keys_insert, Keyed.keys_insert, same]
  rw [asWritten type.fields rfl, Keyed.keys_insertAll]

/-- Fields with new names, all different, go to the end as they are. -/
theorem members_addAll_of_nodup (type : ObjectType) (added : List Field)
    (distinct : (type.fields.keys ++ added.map Field.label).Nodup) :
    (type.addAll added).fields.members = type.fields.members ++ added := by
  induction added generalizing type with
  | nil => exact (List.append_nil _).symm
  | cons first others inductionHypothesis =>
    rw [List.map_cons, List.append_cons] at distinct
    have absent : first.label ∉ type.fields.keys := fun present =>
      (List.nodup_append.mp (List.nodup_append.mp distinct).1).2.2 _ present _
        List.mem_cons_self rfl
    have asWritten : (type.addField first).fields = type.fields.insert first := by
      rw [addField, Keyed.find?_eq_none_iff.mpr absent]
    rw [addAll_cons, inductionHypothesis, asWritten, Keyed.members_insert_of_not_mem _ _ absent,
      List.append_assoc, List.singleton_append]
    rw [asWritten, Keyed.keys_insert_of_not_mem _ _ absent]
    exact distinct

theorem merged_holders_addField (type : ObjectType) (first : Field) (others : List Field)
    (name : String) :
    merged ((type.addField first).holders others name) =
      merged (type.holders (first :: others) name) := by
  rw [holders, holders, find?_addField, withField]
  by_cases same : first.label = name
  · rw [if_pos same, List.filter_cons_of_pos (by simpa using same)]
    cases type.fields.find? name <;> rfl
  · rw [if_neg same, List.filter_cons_of_neg (by simpa using same)]

/-- Under each name is found what its holders come to. -/
theorem find?_addAll (type : ObjectType) (added : List Field) (name : String) :
    (type.addAll added).fields.find? name = merged (type.holders added name) := by
  induction added generalizing type with
  | nil =>
    rw [holders, List.filter_nil, List.append_nil]
    cases found : type.fields.find? name <;> exact found
  | cons first others inductionHypothesis =>
    rw [addAll_cons, inductionHypothesis, merged_holders_addField]

/-- Of a field that is there, additions change the arguments and nothing else. -/
theorem exists_find?_addAll {type : ObjectType} {name : String} {field : Field}
    (found : type.fields.find? name = some field) (added : List Field) :
    ∃ after, (type.addAll added).fields.find? name = some after ∧
      after = { field with arguments := after.arguments } := by
  rw [find?_addAll, holders, found]
  exact ⟨_, rfl, (Field.isUnionOf_foldl_merge field _).sameAttributes⟩

/-- Fields that have been added already change nothing. -/
theorem addAll_addAll_self (type : ObjectType) (added : List Field) :
    (type.addAll added).addAll added = type.addAll added := by
  have sameFields : ((type.addAll added).addAll added).fields = (type.addAll added).fields := by
    refine Keyed.ext_find? ?_ fun name => ?_
    · rw [keys_addAll (type.addAll added), keys_addAll, Keyed.filter_not_mem_append_eraseDups]
      exact List.append_nil _
    · rw [find?_addAll, holders, find?_addAll, holders]
      generalize (added.filter fun field => field.label = name) = ofName
      cases type.fields.find? name with
      | some present => exact congrArg some (Field.foldl_merge_self present ofName)
      | none =>
        cases ofName with
        | nil => rfl
        | cons first others =>
          show some ((first :: others).foldl Field.merge (others.foldl Field.merge first)) = _
          have once := Field.foldl_merge_self first (first :: others)
          rw [List.foldl_cons, List.foldl_cons, Field.merge_self] at once
          exact congrArg some once
  rw [addAll_eq (type.addAll added), sameFields]

/-- A field that is there is what the holders of its name come to, and every name that has a holder
is there. -/
theorem found_isUnionOf (type : ObjectType) (added : List Field) (name : String) :
    (type.holders added name = [] ∧ (type.addAll added).fields.find? name = none) ∨
      ∃ first others field, type.holders added name = first :: others ∧
        (type.addAll added).fields.find? name = some field ∧ field.IsUnionOf first others := by
  rw [find?_addAll]
  cases found : merged (type.holders added name) with
  | none => exact Or.inl ⟨merged_eq_none_iff.mp found, rfl⟩
  | some field =>
    obtain ⟨first, others, split, isUnion⟩ := exists_of_merged_eq_some found
    exact Or.inr ⟨first, others, field, split, rfl, isUnion⟩

end ObjectType

/-! ### What follows for types, fields and operations -/

theorem ModelType.applyOperations_eq_addAll (type : ModelType) (root : Root)
    (rootType : ObjectType) :
    type.applyOperations root rootType = rootType.addAll (type.operationsOn root) := rfl

/-- A type to which fields are added keeps its name, description and wiring. Its names are those
that it had, and then the new ones in the order in which they came first. Under each of them is
found the union of the fields that hold it. So to add the same fields once more changes nothing,
which fields are merged first makes no difference, and the operations of a model change nothing
when they are applied to the root types once more. -/
theorem ObjectType.addAll_merges (type : ObjectType) (added : List Field) :
    type.addAll added = { type with fields := (type.addAll added).fields } ∧
    (type.addAll added).fields.keys = type.fields.keys ++
      ((added.map Field.label).filter fun name => name ∉ type.fields.keys).eraseDups ∧
    (∀ name,
      (type.holders added name = [] ∧ (type.addAll added).fields.find? name = none) ∨
        ∃ first others field, type.holders added name = first :: others ∧
          (type.addAll added).fields.find? name = some field ∧ field.IsUnionOf first others) ∧
    (type.addAll added).addAll added = type.addAll added ∧
    (∀ first second third : Field,
      (first.merge second).merge third = first.merge (second.merge third)) ∧
    ∀ (source : ModelType) (root : Root) (rootType : ObjectType),
      source.applyOperations root (source.applyOperations root rootType) =
        source.applyOperations root rootType := by
  refine ⟨addAll_eq type added, keys_addAll type added, found_isUnionOf type added,
    addAll_addAll_self type added, Field.merge_assoc, fun source root rootType => ?_⟩
  rw [ModelType.applyOperations_eq_addAll, ModelType.applyOperations_eq_addAll]
  exact addAll_addAll_self rootType (source.operationsOn root)

end SchemaAssembly
