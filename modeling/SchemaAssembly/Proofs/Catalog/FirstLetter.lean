/-
This file says when a field of a catalog is found in either case of the first letter of its name.
A name with a capital is only answered by the field that has exactly this name, for the capital
form of a capital is the letter itself, and no spelling in the schema begins with a capital. A name
with a small letter is also answered by the field that has the capital, and by all fields that the
schema spells so. So the two are looked up alike exactly where the first field that answers to the
small letter has the type of one that has the capital. They are not in general: a column whose own
name begins with a small letter is not found under the capital.
-/

import SchemaAssembly.Proofs.Catalog.Ancestry
import SchemaAssembly.Proofs.Catalog.Lookup
import SchemaAssembly.Proofs.Text.Case

namespace SchemaAssembly

namespace Spelling

/-! ### Names in either case -/

/-- A name with its first letter in the other case. -/
def inOtherCase (name : String) : String :=
  match name.toList with
  | [] => name
  | first :: rest => String.ofList (Text.otherCase first :: rest)

/-- Whether a name begins with a small letter of ASCII. -/
def BeginsSmall (name : String) : Prop :=
  ∃ first rest, name = String.ofList (first :: rest) ∧ first.isLower = true

/-- Whether a name begins with a capital of ASCII. -/
def BeginsCapital (name : String) : Prop :=
  ∃ first rest, name = String.ofList (first :: rest) ∧ first.isUpper = true

theorem inOtherCase_ofList (first : Char) (rest : List Char) :
    inOtherCase (String.ofList (first :: rest)) =
      String.ofList (Text.otherCase first :: rest) := by
  rw [inOtherCase, String.toList_ofList]

theorem capitalized_ofList (first : Char) (rest : List Char) :
    Text.capitalized (String.ofList (first :: rest)) =
      String.ofList (Text.raised first ++ rest) := by
  rw [Text.capitalized, String.toList_ofList]

theorem BeginsCapital.capitalized_eq {name : String} (capital : BeginsCapital name) :
    Text.capitalized name = name := by
  obtain ⟨first, rest, rfl, isUpper⟩ := capital
  rw [capitalized_ofList, (Text.raised_of_isUpper isUpper).1, List.singleton_append]

theorem BeginsCapital.inOtherCase {name : String} (capital : BeginsCapital name) :
    BeginsSmall (inOtherCase name) ∧ Spelling.inOtherCase (Spelling.inOtherCase name) = name := by
  obtain ⟨first, rest, rfl, isUpper⟩ := capital
  obtain ⟨-, -, isLower, back⟩ := Text.raised_of_isUpper isUpper
  rw [inOtherCase_ofList]
  exact ⟨⟨_, rest, rfl, isLower⟩, by rw [inOtherCase_ofList, back]⟩

theorem BeginsSmall.inOtherCase {name : String} (small : BeginsSmall name) :
    BeginsCapital (inOtherCase name) ∧ Text.capitalized name = Spelling.inOtherCase name := by
  obtain ⟨first, rest, rfl, isLower⟩ := small
  obtain ⟨raised, isUpper⟩ := Text.raised_of_isLower isLower
  rw [inOtherCase_ofList]
  exact ⟨⟨_, rest, rfl, isUpper⟩, by rw [capitalized_ofList, raised, List.singleton_append]⟩

/-- The schema spells no field with a capital of ASCII at the beginning: a first letter that stays
as it is, is no capital, and one that is lowered is none afterwards. -/
theorem not_beginsCapital_fieldName (stored : String) : ¬BeginsCapital (fieldName stored) := by
  rintro ⟨first, rest, spelled, capital⟩
  replace spelled : fieldLetters stored.toList = first :: rest := String.ofList_injective spelled
  cases letters : stored.toList with
  | nil =>
    rw [letters] at spelled
    cases spelled
  | cons initial others =>
    rw [letters, fieldLetters] at spelled
    cases changed : firstWordCapitals (initial :: others) with
    | zero =>
      rw [changed] at spelled
      obtain ⟨rfl, -⟩ := List.cons.inj spelled
      exact firstWordCapitals_ne_zero others (Text.raised_of_isUpper capital).2.1 changed
    | succ further =>
      obtain ⟨small, tail, lowered, notCapital⟩ := Text.exists_lowered_eq_cons initial
      rw [changed, List.take_succ_cons, List.flatMap_cons, lowered] at spelled
      obtain ⟨rfl, -⟩ := List.cons.inj spelled
      rw [capital] at notCapital
      cases notCapital

end Spelling

namespace Catalog

open Spelling

variable {catalog : Catalog} {dataClass : String}

/-! ### Who answers to a capital -/

/-- Whether a name is looked up like the one with its first letter in the other case. -/
structure IsAlike (catalog : Catalog) (dataClass name : String) : Prop where
  present : catalog.hasField dataClass name = catalog.hasField dataClass (inOtherCase name)
  typed : catalog.typeOfField dataClass name = catalog.typeOfField dataClass (inOtherCase name)

/-- Whether the case of the first letter of a name does not matter when fields are looked up. -/
def IgnoresFirstCase (catalog : Catalog) (dataClass : String) : Prop :=
  ∀ name, BeginsSmall name ∨ BeginsCapital name → catalog.IsAlike dataClass name

/-- Whether the first field that answers to a name has the type of a field that has the name with
its first letter in the other case. -/
def IsAnsweredAlike (catalog : Catalog) (dataClass name : String) : Prop :=
  ∀ found, catalog.IsFirstToAnswer dataClass name found →
    ∃ field, (catalog.fields dataClass).get? (inOtherCase name) = some field ∧
      field.schemaType = found.2.schemaType

/-- Only the field that has exactly this name answers to a name with a capital. -/
theorem answersTo_of_beginsCapital {name : String} (capital : BeginsCapital name)
    (stored : String) : answersTo stored name = decide (stored = name) := by
  have notSpelled : ¬fieldName stored = name := by
    rintro rfl
    exact not_beginsCapital_fieldName stored capital
  rw [answersTo, capital.capitalized_eq, decide_eq_false notSpelled, Bool.or_false, Bool.or_self]

theorem findField_of_beginsCapital {name : String} (capital : BeginsCapital name) :
    catalog.findField dataClass name = (catalog.fields dataClass).get? name := by
  have sameTest : (fun field : String × DataField => answersTo field.1 name) =
      fun field => decide (field.1 = name) :=
    funext fun field => answersTo_of_beginsCapital capital field.1
  rw [findField, sameTest]
  rfl

/-- A field that has a capital answers to the small letter, too. -/
theorem answersTo_inOtherCase {name : String} (small : BeginsSmall name) :
    answersTo (inOtherCase name) name = true := by
  rw [answersTo, small.inOtherCase.2]
  simp

theorem isAlike_inOtherCase {name : String} (capital : BeginsCapital name)
    (alike : catalog.IsAlike dataClass (inOtherCase name)) : catalog.IsAlike dataClass name := by
  obtain ⟨present, typed⟩ := alike
  rw [capital.inOtherCase.2] at present typed
  exact ⟨present.symm, typed.symm⟩

/-- A name with a small letter is looked up like the one with the capital if the first field that
answers to it has the type of one that has the capital. -/
theorem isAlike_iff {name : String} (small : BeginsSmall name) :
    catalog.IsAlike dataClass name ↔ catalog.IsAnsweredAlike dataClass name := by
  have underCapital : catalog.findField dataClass (inOtherCase name) =
      (catalog.fields dataClass).get? (inOtherCase name) :=
    findField_of_beginsCapital small.inOtherCase.1
  constructor
  · rintro ⟨present, typed⟩ found first
    obtain ⟨isFound, hasType⟩ := typeOfField_of_isFirstToAnswer first
    rw [isFound, hasField, underCapital, eq_comm, Option.isSome_iff_exists] at present
    obtain ⟨field, stored⟩ := present
    refine ⟨field, stored, ?_⟩
    rw [hasType, typeOfField, underCapital, stored] at typed
    exact typed.symm
  · intro answered
    cases found : catalog.findField dataClass name with
    | some field =>
      obtain ⟨stored, first⟩ := findField_eq_some_iff.mp found
      obtain ⟨other, isStored, sameType⟩ := answered (stored, field) first
      refine ⟨?_, ?_⟩
      · rw [hasField, hasField, underCapital, isStored, found]
        rfl
      · rw [typeOfField, typeOfField, underCapital, isStored, found]
        exact sameType.symm
    | none =>
      have notStored : (catalog.fields dataClass).get? (inOtherCase name) = none := by
        refine Option.eq_none_iff_forall_ne_some.mpr fun field stored => ?_
        obtain ⟨first, isFirst⟩ := exists_isFirstToAnswer
          (Keyed.mem_of_get?_eq_some stored) (answersTo_inOtherCase small)
        have isFound := findField_of_isFirstToAnswer isFirst
        rw [found] at isFound
        cases isFound
      refine ⟨?_, ?_⟩
      · rw [hasField, hasField, underCapital, notStored, found]
      · rw [typeOfField, typeOfField, underCapital, notStored, found]

/-- Where no field but the one that has the capital answers to the small letter, the case does not
matter. -/
theorem isAnsweredAlike_of_only {name : String}
    (only : ∀ stored ∈ (catalog.fields dataClass).members, answersTo stored.1 name = true →
      stored.1 = inOtherCase name) : catalog.IsAnsweredAlike dataClass name := by
  intro found first
  refine ⟨found.2, Keyed.get?_eq_some_iff.mpr ?_, rfl⟩
  rw [← only found first.mem first.answers]
  exact first.mem

/-- The identifier that every class has is found as `id`, but as `Id` only where a field has this
name. -/
theorem not_isAnsweredAlike_id (present : catalog.hasClass dataClass = true)
    (noField : "Id" ∉ (catalog.fields dataClass).keys) :
    ¬catalog.IsAnsweredAlike dataClass "id" := by
  intro answered
  have isKey : "ID" ∈ (catalog.fields dataClass).keys :=
    (mem_keys_fields_iff present).mpr (Or.inl (by decide))
  obtain ⟨stored, isStored, named⟩ := List.mem_map.mp isKey
  have answers : answersTo stored.1 "id" = true := by
    rw [named]
    decide +kernel
  obtain ⟨found, first⟩ := exists_isFirstToAnswer isStored answers
  obtain ⟨field, underCapital, -⟩ := answered found first
  exact noField (List.mem_map_of_mem (f := Prod.fst) (Keyed.mem_of_get?_eq_some underCapital))

/-- Under a name with a capital only the field is found that has exactly this name. So a name with a
small letter is looked up like the one with the capital exactly if the first field that answers to
it has the type of one that has the capital, as where no other field answers to it; the case of the
first letter does not matter for a class if this is so for all names; and it does matter for every
class without a field `Id`, because of the identifier. -/
theorem ignoresFirstCase_iff (catalog : Catalog) (dataClass : String) :
    (∀ name, BeginsCapital name →
      catalog.findField dataClass name = (catalog.fields dataClass).get? name) ∧
    (∀ name, BeginsSmall name →
      (catalog.IsAlike dataClass name ↔ catalog.IsAnsweredAlike dataClass name) ∧
      ((∀ stored ∈ (catalog.fields dataClass).members, answersTo stored.1 name = true →
        stored.1 = inOtherCase name) → catalog.IsAlike dataClass name)) ∧
    (catalog.IgnoresFirstCase dataClass ↔
      ∀ name, BeginsSmall name → catalog.IsAnsweredAlike dataClass name) ∧
    (catalog.hasClass dataClass = true → "Id" ∉ (catalog.fields dataClass).keys →
      ¬catalog.IgnoresFirstCase dataClass) := by
  have alike : catalog.IgnoresFirstCase dataClass ↔
      ∀ name, BeginsSmall name → catalog.IsAnsweredAlike dataClass name := by
    constructor
    · exact fun ignores name small => (isAlike_iff small).mp (ignores name (Or.inl small))
    · rintro answered name (small | capital)
      · exact (isAlike_iff small).mpr (answered name small)
      · have small := capital.inOtherCase.1
        exact isAlike_inOtherCase capital ((isAlike_iff small).mpr (answered _ small))
  refine ⟨fun name capital => findField_of_beginsCapital capital, fun name small => ?_, alike,
    fun present noField ignores => ?_⟩
  · exact ⟨isAlike_iff small, fun only => (isAlike_iff small).mpr (isAnsweredAlike_of_only only)⟩
  · exact not_isAnsweredAlike_id present noField
      (alike.mp ignores "id" ⟨'i', ['d'], rfl, rfl⟩)

/-- The title of a post is found in either case, but its identifier is not. -/
theorem ignoresFirstCase_post :
    BeginsSmall "title" ∧ BeginsCapital "Title" ∧ blog.IsAlike "Blog\\Post" "title" ∧
      blog.findField "Blog\\Post" "Title" = some (.column .varchar) ∧
      blog.typeOfField "Blog\\Post" "title" = some "String" ∧
      ¬blog.IgnoresFirstCase "Blog\\Post" := by
  obtain ⟨underCapital, underSmall, -, notIgnored⟩ := ignoresFirstCase_iff blog "Blog\\Post"
  have small : BeginsSmall "title" := ⟨'t', _, rfl, rfl⟩
  have capital : BeginsCapital "Title" := ⟨'T', _, rfl, rfl⟩
  have alike : blog.IsAlike "Blog\\Post" "title" := by
    refine (underSmall "title" small).2 ?_
    rw [fields_post]
    decide +kernel
  have found : blog.findField "Blog\\Post" "Title" = some (.column .varchar) := by
    rw [underCapital "Title" capital, Keyed.get?, Keyed.find?, fields_post]
    decide +kernel
  refine ⟨small, capital, alike, found, ?_, notIgnored rfl ?_⟩
  · rw [alike.typed]
    exact congrArg (fun field => field.bind DataField.schemaType) found
  · rw [Keyed.keys, fields_post]
    decide +kernel

/-- A catalog with one class that has a column with a small letter at the beginning. -/
def smallTitle : Catalog where
  classes := Keyed.ofList [("Page", ⟨none, Keyed.ofList [("title", .varchar)], ∅, ∅⟩)]

/-- The column is found under its own name, but not with the first letter raised. -/
theorem not_isAlike_of_small_column :
    BeginsSmall "title" ∧ inOtherCase "title" = "Title" ∧
      smallTitle.hasField "Page" "title" = true ∧ smallTitle.hasField "Page" "Title" = false ∧
      smallTitle.typeOfField "Page" "title" = some "String" ∧
      smallTitle.typeOfField "Page" "Title" = none ∧
      ¬smallTitle.IgnoresFirstCase "Page" := by
  have members : (smallTitle.fields "Page").members = implicitFields ++
      [("title", .column .varchar)] := by
    rw [fields_of_hasClass rfl, lineage, lineageIn_of_root rfl rfl]
    rfl
  have small : BeginsSmall "title" := ⟨'t', _, rfl, rfl⟩
  have asStored : smallTitle.hasField "Page" "title" = true := by
    rw [hasField, findField, members]
    decide +kernel
  have raised : smallTitle.hasField "Page" "Title" = false := by
    rw [hasField, findField, members]
    decide +kernel
  refine ⟨small, by decide, asStored, raised, ?_, ?_, fun ignores => ?_⟩
  · rw [typeOfField, findField, members]
    decide +kernel
  · rw [typeOfField, findField, members]
    decide +kernel
  · have present := (ignores "title" (Or.inl small)).present
    rw [asStored, show inOtherCase "title" = "Title" by decide, raised] at present
    cases present

end Catalog

end SchemaAssembly
