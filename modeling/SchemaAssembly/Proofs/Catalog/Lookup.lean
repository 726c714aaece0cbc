/-
This file compares the two ways in which a catalog is asked for the types of the fields of a class:
by the name of a field, and for all fields at once. A name is answered by the first field that is
spelled so in one way or another, while of several fields with one spelling in the schema the last
with a type is listed. The ways agree where no field of another type stands before the one that is
meant, so in particular where no field answers to a name or spelling of another. They do not agree
in general: of two columns that differ in the case of their first letter only, the one is looked up
under the name of the other.
-/

import SchemaAssembly.Proofs.Catalog.Inheritance

namespace SchemaAssembly.Catalog

/-! ### Who answers, and who is listed -/

/-- Whether a field of a class is the first that answers to a name. -/
def IsFirstToAnswer (catalog : Catalog) (dataClass name : String) (found : String × DataField) :
    Prop :=
  ∃ before after, (catalog.fields dataClass).members = before ++ found :: after ∧
    answersTo found.1 name = true ∧ ∀ earlier ∈ before, answersTo earlier.1 name = false

/-- Whether a field of a class is the last with a type that has a spelling in the schema. -/
def IsLastSpelled (catalog : Catalog) (dataClass spelling : String) (listed : String × DataField) :
    Prop :=
  ∃ before after, (catalog.fields dataClass).members = before ++ listed :: after ∧
    Spelling.fieldName listed.1 = spelling ∧ listed.2.schemaType.isSome = true ∧
    ∀ later ∈ after, Spelling.fieldName later.1 = spelling → later.2.schemaType = none

/-- Whether a field of a class is meant by a name: it has the name, or it is the one that is listed
under it. -/
def IsMeant (catalog : Catalog) (dataClass name : String) (meant : String × DataField) : Prop :=
  (meant ∈ (catalog.fields dataClass).members ∧ meant.1 = name) ∨
    catalog.IsLastSpelled dataClass name meant

/-- Whether looking up and listing the fields of a class agree: a field is found under every
spelling that is listed, with the type that is listed, and under the name of every field, with the
type of this field. -/
structure LookupAgrees (catalog : Catalog) (dataClass : String) : Prop where
  listed : ∀ spelling type, (spelling, type) ∈ (catalog.schemaFields dataClass).members →
    catalog.hasField dataClass spelling = true ∧
      catalog.typeOfField dataClass spelling = some type
  stored : ∀ name field, (name, field) ∈ (catalog.fields dataClass).members →
    catalog.hasField dataClass name = true ∧
      catalog.typeOfField dataClass name = field.schemaType

variable {catalog : Catalog} {dataClass : String}

theorem answersTo_self (stored : String) : answersTo stored stored = true := by
  simp [answersTo]

theorem answersTo_fieldName (stored : String) :
    answersTo stored (Spelling.fieldName stored) = true := by
  simp [answersTo]

theorem findField_eq_some_iff {name : String} {field : DataField} :
    catalog.findField dataClass name = some field ↔
      ∃ stored, catalog.IsFirstToAnswer dataClass name (stored, field) := by
  rw [findField, Option.map_eq_some_iff]
  constructor
  · rintro ⟨⟨stored, field⟩, found, rfl⟩
    obtain ⟨answers, before, after, split, others⟩ := List.find?_eq_some_iff_append.mp found
    exact ⟨stored, before, after, split, answers, by simpa using others⟩
  · rintro ⟨stored, before, after, split, answers, others⟩
    refine ⟨(stored, field), List.find?_eq_some_iff_append.mpr ?_, rfl⟩
    exact ⟨answers, before, after, split, by simpa using others⟩

theorem findField_of_isFirstToAnswer {name : String} {found : String × DataField}
    (first : catalog.IsFirstToAnswer dataClass name found) :
    catalog.findField dataClass name = some found.2 :=
  findField_eq_some_iff.mpr ⟨found.1, first⟩

/-- The first field that answers to a name is the one that is looked up. -/
theorem typeOfField_of_isFirstToAnswer {name : String} {found : String × DataField}
    (first : catalog.IsFirstToAnswer dataClass name found) :
    catalog.hasField dataClass name = true ∧
      catalog.typeOfField dataClass name = found.2.schemaType := by
  rw [hasField, typeOfField, findField_of_isFirstToAnswer first]
  exact ⟨rfl, rfl⟩

theorem IsFirstToAnswer.mem {name : String} {found : String × DataField}
    (first : catalog.IsFirstToAnswer dataClass name found) :
    found ∈ (catalog.fields dataClass).members := by
  obtain ⟨before, after, split, -, -⟩ := first
  rw [split]
  exact List.mem_append_right _ List.mem_cons_self

theorem IsFirstToAnswer.answers {name : String} {found : String × DataField}
    (first : catalog.IsFirstToAnswer dataClass name found) : answersTo found.1 name = true := by
  obtain ⟨-, -, -, answers, -⟩ := first
  exact answers

/-- If some field answers to a name, there is a first one. -/
theorem exists_isFirstToAnswer {name : String} {stored : String × DataField}
    (present : stored ∈ (catalog.fields dataClass).members)
    (answers : answersTo stored.1 name = true) :
    ∃ found, catalog.IsFirstToAnswer dataClass name found := by
  cases found : catalog.findField dataClass name with
  | some field =>
    obtain ⟨first, isFirst⟩ := findField_eq_some_iff.mp found
    exact ⟨(first, field), isFirst⟩
  | none =>
    rw [findField, Option.map_eq_none_iff, List.find?_eq_none] at found
    exact absurd answers (found stored present)

theorem IsMeant.mem {name : String} {meant : String × DataField}
    (isMeant : catalog.IsMeant dataClass name meant) :
    meant ∈ (catalog.fields dataClass).members := by
  rcases isMeant with ⟨present, -⟩ | ⟨before, after, split, -, -, -⟩
  · exact present
  · rw [split]
    exact List.mem_append_right _ List.mem_cons_self

theorem IsMeant.answers {name : String} {meant : String × DataField}
    (isMeant : catalog.IsMeant dataClass name meant) : answersTo meant.1 name = true := by
  rcases isMeant with ⟨-, rfl⟩ | ⟨-, -, -, rfl, -, -⟩
  · exact answersTo_self meant.1
  · exact answersTo_fieldName meant.1

/-- What is listed under a spelling is the type of the last field that is spelled so. -/
theorem mem_schemaFields_iff {spelling type : String} :
    (spelling, type) ∈ (catalog.schemaFields dataClass).members ↔
      ∃ listed, catalog.IsLastSpelled dataClass spelling listed ∧
        listed.2.schemaType = some type := by
  rw [schemaFields, Keyed.mem_ofList_iff]
  constructor
  · rintro ⟨before, after, entries, others⟩
    obtain ⟨front, back, members, -, rest⟩ := List.filterMap_eq_append_iff.mp entries
    obtain ⟨untyped, listed, behind, split, -, typed, isAfter⟩ := List.filterMap_eq_cons_iff.mp rest
    obtain ⟨found, hasType, same⟩ := Option.map_eq_some_iff.mp typed
    obtain ⟨rfl, rfl⟩ := Prod.mk.inj same
    refine ⟨listed, ⟨front ++ untyped, behind, ?_, rfl, ?_, fun later member sameSpelling => ?_⟩,
      hasType⟩
    · rw [members, split, List.append_assoc]
    · rw [hasType]
      rfl
    · cases ofLater : later.2.schemaType with
      | none => rfl
      | some other =>
        have isListed : (Spelling.fieldName later.1, other) ∈ after := by
          rw [← isAfter, List.mem_filterMap]
          exact ⟨later, member, by rw [ofLater]; rfl⟩
        exact absurd sameSpelling (others (Spelling.fieldName later.1, other) isListed)
  · rintro ⟨listed, ⟨before, after, split, rfl, -, others⟩, hasType⟩
    rw [split, List.filterMap_append, List.filterMap_cons, hasType]
    refine ⟨_, _, rfl, fun later member => ?_⟩
    obtain ⟨field, isLater, typed⟩ := List.mem_filterMap.mp member
    obtain ⟨other, ofField, rfl⟩ := Option.map_eq_some_iff.mp typed
    intro same
    rw [others field isLater same] at ofField
    cases ofField

/-- If all names get the type of the field that they mean, looking up and listing agree. -/
theorem lookupAgrees_of_isMeant
    (same : ∀ name found meant, catalog.IsFirstToAnswer dataClass name found →
      catalog.IsMeant dataClass name meant → found.2.schemaType = meant.2.schemaType) :
    catalog.LookupAgrees dataClass := by
  have agree : ∀ name meant, catalog.IsMeant dataClass name meant →
      catalog.hasField dataClass name = true ∧
        catalog.typeOfField dataClass name = meant.2.schemaType := by
    intro name meant isMeant
    obtain ⟨found, first⟩ := exists_isFirstToAnswer isMeant.mem isMeant.answers
    rw [← same name found meant first isMeant]
    exact typeOfField_of_isFirstToAnswer first
  constructor
  · intro spelling type isListed
    obtain ⟨listed, isLast, typed⟩ := mem_schemaFields_iff.mp isListed
    rw [← typed]
    exact agree spelling listed (Or.inr isLast)
  · exact fun name field present => agree name (name, field) (Or.inl ⟨present, rfl⟩)

/-- A name is answered by the first field that answers to it, and a spelling is listed for the last
typed field that has it. Every field is found under its name and its spelling. But its type is found
there exactly if no field of another type is the first to answer; in particular if no other field
answers to its name or its spelling. -/
theorem lookupAgrees_iff (catalog : Catalog) (dataClass : String) :
    (∀ name found, catalog.IsFirstToAnswer dataClass name found →
      catalog.typeOfField dataClass name = found.2.schemaType) ∧
    (∀ spelling type, (spelling, type) ∈ (catalog.schemaFields dataClass).members ↔
      ∃ listed, catalog.IsLastSpelled dataClass spelling listed ∧
        listed.2.schemaType = some type) ∧
    (∀ stored ∈ (catalog.fields dataClass).members,
      catalog.hasField dataClass stored.1 = true ∧
        catalog.hasField dataClass (Spelling.fieldName stored.1) = true) ∧
    (catalog.LookupAgrees dataClass ↔
      ∀ name found meant, catalog.IsFirstToAnswer dataClass name found →
        catalog.IsMeant dataClass name meant → found.2.schemaType = meant.2.schemaType) ∧
    ((∀ stored ∈ (catalog.fields dataClass).members,
      ∀ other ∈ (catalog.fields dataClass).members,
        (answersTo other.1 stored.1 = true ∨
          answersTo other.1 (Spelling.fieldName stored.1) = true) → other = stored) →
      catalog.LookupAgrees dataClass) := by
  refine ⟨fun name found first => (typeOfField_of_isFirstToAnswer first).2,
    fun spelling type => mem_schemaFields_iff, fun stored present => ?_, ⟨?_, ?_⟩, fun apart => ?_⟩
  · obtain ⟨_, ofName⟩ := exists_isFirstToAnswer present (answersTo_self stored.1)
    obtain ⟨_, ofSpelling⟩ := exists_isFirstToAnswer present (answersTo_fieldName stored.1)
    exact ⟨(typeOfField_of_isFirstToAnswer ofName).1, (typeOfField_of_isFirstToAnswer ofSpelling).1⟩
  · rintro agrees name found meant first isMeant
    rw [← (typeOfField_of_isFirstToAnswer first).2]
    rcases isMeant with ⟨present, rfl⟩ | isLast
    · exact (agrees.stored meant.1 meant.2 present).2
    · have isLast' := isLast
      obtain ⟨-, -, -, -, isTyped, -⟩ := isLast'
      obtain ⟨type, typed⟩ := Option.isSome_iff_exists.mp isTyped
      rw [typed]
      exact (agrees.listed name type (mem_schemaFields_iff.mpr ⟨meant, isLast, typed⟩)).2
  · exact lookupAgrees_of_isMeant
  · refine lookupAgrees_of_isMeant fun name found meant first isMeant => ?_
    have answersMeant : answersTo found.1 meant.1 = true ∨
        answersTo found.1 (Spelling.fieldName meant.1) = true := by
      rcases isMeant with ⟨-, rfl⟩ | ⟨-, -, -, rfl, -, -⟩
      · exact Or.inl first.answers
      · exact Or.inr first.answers
    rw [apart meant isMeant.mem found first.mem answersMeant]

/-- No field of a post answers to the name of another, so all are found with their types. -/
theorem lookupAgrees_post :
    blog.LookupAgrees "Blog\\Post" ∧
      blog.typeOfField "Blog\\Post" "urlSegment" = some "String" ∧
      blog.typeOfField "Blog\\Post" "Author" = some "Member" ∧
      blog.typeOfField "Blog\\Post" "Score" = none := by
  have agrees : blog.LookupAgrees "Blog\\Post" := by
    refine (lookupAgrees_iff blog "Blog\\Post").2.2.2.2 ?_
    rw [fields_post]
    decide +kernel
  refine ⟨agrees, (agrees.listed _ _ ?_).2, (agrees.stored "Author" (.one "Blog\\Member") ?_).2,
    (agrees.stored "Score" (.column (.custom none)) ?_).2⟩
  · rw [schemaFields, fields_post]
    decide +kernel
  · rw [fields_post]
    decide +kernel
  · rw [fields_post]
    decide +kernel

/-- A catalog with one class that has two columns, which differ in the case of a letter. -/
def twoTitles : Catalog where
  classes := Keyed.ofList
    [("Page", ⟨none, Keyed.ofList [("Title", .varchar), ("title", .int)], ∅, ∅⟩)]

/-- Under `title` the type of the column `title` is listed, but that of `Title` is looked up. -/
theorem not_lookupAgrees_of_two_titles :
    ("title", "Int") ∈ (twoTitles.schemaFields "Page").members ∧
      ("title", .column .int) ∈ (twoTitles.fields "Page").members ∧
      twoTitles.typeOfField "Page" "title" = some "String" ∧
      ¬twoTitles.LookupAgrees "Page" := by
  have members : (twoTitles.fields "Page").members = implicitFields ++
      [("Title", .column .varchar), ("title", .column .int)] := by
    rw [fields_of_hasClass rfl, lineage, lineageIn_of_root rfl rfl]
    rfl
  have listed : ("title", "Int") ∈ (twoTitles.schemaFields "Page").members := by
    rw [schemaFields, members]
    decide +kernel
  have stored : ("title", .column .int) ∈ (twoTitles.fields "Page").members := by
    rw [members]
    decide
  have lookedUp : twoTitles.typeOfField "Page" "title" = some "String" := by
    rw [typeOfField, findField, members]
    decide +kernel
  refine ⟨listed, stored, lookedUp, fun agrees => ?_⟩
  have asListed := (agrees.listed "title" "Int" listed).2
  rw [lookedUp] at asListed
  exact absurd asListed (by decide)

end SchemaAssembly.Catalog
