/-
This file proves where the fields of a class come from. A class has the implicit fields, and what it
and its ancestors declare. So if all that they declare has names, all fields have names, also the
keys that are implied by relations, and the schema spells all of them as names.
-/

import SchemaAssembly.Catalog.Basic
import SchemaAssembly.Proofs.Catalog.Spelling
import SchemaAssembly.Proofs.Keyed

namespace SchemaAssembly

namespace DataClass

/-! ### What a class declares -/

/-- The names of the columns and relations that a class declares itself. -/
def names (dataClass : DataClass) : List String :=
  dataClass.columns.keys ++ (dataClass.hasOne.keys ++ dataClass.hasMany.keys)

/-- The key that is implied by a relation has a name if the relation has one. -/
theorem isName_of_mem_declared {dataClass : DataClass}
    (valid : ∀ name ∈ dataClass.names, isName name = true) {field : String × DataField}
    (declared : field ∈ dataClass.declared) : isName field.1 = true := by
  simp only [names, List.forall_mem_append] at valid
  obtain ⟨ofColumns, ofOne, ofMany⟩ := valid
  rw [DataClass.declared, List.mem_append, List.mem_append, List.mem_map, List.mem_flatMap,
    List.mem_map] at declared
  rcases declared with (⟨column, present, rfl⟩ | ⟨relation, present, isOne⟩) |
    ⟨relation, present, rfl⟩
  · exact ofColumns column.1 (List.mem_map_of_mem present)
  · have relationNamed := ofOne relation.1 (List.mem_map_of_mem present)
    rw [List.mem_cons, List.mem_singleton] at isOne
    rcases isOne with rfl | rfl
    · rw [isName, String.toList_append]
      exact isNameText_append relationNamed rfl
    · exact relationNamed
  · exact ofMany relation.1 (List.mem_map_of_mem present)

end DataClass

namespace Catalog

/-! ### Ancestors -/

section Lineage

variable {classes : Mapping String DataClass} {name : String} {dataClass : DataClass}

/-- A class that inherits from none is its whole lineage. -/
theorem lineageIn_of_root (found : classes.find? name = some (name, dataClass))
    (root : dataClass.parent = none) : lineageIn classes name = [(name, dataClass)] := by
  rw [lineageIn]
  split
  · next unknown => cases found.symm.trans unknown
  · next same =>
    cases found.symm.trans same
    simp only [root]

/-- A class comes after the lineage of the class that it inherits from. -/
theorem lineageIn_of_parent {parent : String}
    (found : classes.find? name = some (name, dataClass))
    (inherits : dataClass.parent = some parent) :
    lineageIn classes name = lineageIn (classes.erase name) parent ++ [(name, dataClass)] := by
  rw [lineageIn]
  split
  · next unknown => cases found.symm.trans unknown
  · next same =>
    cases found.symm.trans same
    simp only [inherits]

end Lineage

/-- A catalog of two classes: a post is a page with an author and comments. Its score has no type in
a schema. -/
def blog : Catalog where
  classes := Keyed.ofList
    [("Page", ⟨none, Keyed.ofList [("Title", .varchar), ("URLSegment", .varchar)], ∅, ∅⟩),
      ("Blog\\Post", ⟨some "Page", Keyed.ofList [("Score", .custom none)],
        Keyed.ofList [("Author", "Blog\\Member")], Keyed.ofList [("Comments", "Comment")]⟩)]

/-- Posts inherit from pages. -/
theorem lineage_post : blog.lineage "Blog\\Post" = blog.classes.members := by
  rw [lineage, lineageIn_of_parent rfl rfl, lineageIn_of_root rfl rfl]
  rfl

/-! ### The fields of a class -/

variable {catalog : Catalog} {dataClass : String}

theorem fields_of_hasClass (present : catalog.hasClass dataClass = true) :
    catalog.fields dataClass = Keyed.ofList (implicitFields ++
      (catalog.lineage dataClass).flatMap fun ancestor => ancestor.2.declared) :=
  if_pos present

/-- A field of a class is an implicit one, or some class in its lineage declares it. -/
theorem mem_fields {field : String × DataField}
    (present : field ∈ (catalog.fields dataClass).members) :
    field ∈ implicitFields ∨
      ∃ ancestor ∈ catalog.lineage dataClass, field ∈ ancestor.2.declared := by
  unfold fields at present
  split at present
  · have isWritten := Keyed.mem_of_mem_ofList present
    rw [List.mem_append, List.mem_flatMap] at isWritten
    exact isWritten
  · cases present

theorem isName_of_mem_implicitFields {field : String × DataField}
    (present : field ∈ implicitFields) : isName field.1 = true := by
  revert field
  decide

section Names

variable
  (valid : ∀ ancestor ∈ catalog.lineage dataClass, ∀ name ∈ ancestor.2.names, isName name = true)
include valid

theorem isName_of_mem_fields {field : String × DataField}
    (present : field ∈ (catalog.fields dataClass).members) : isName field.1 = true := by
  rcases mem_fields present with isImplicit | ⟨ancestor, inLineage, isDeclared⟩
  · exact isName_of_mem_implicitFields isImplicit
  · exact DataClass.isName_of_mem_declared (valid ancestor inLineage) isDeclared

theorem isName_of_mem_schemaFields {entry : String × String}
    (present : entry ∈ (catalog.schemaFields dataClass).members) : isName entry.1 = true := by
  obtain ⟨field, isField, typed⟩ := List.mem_filterMap.mp (Keyed.mem_of_mem_ofList present)
  obtain ⟨type, -, rfl⟩ := Option.map_eq_some_iff.mp typed
  exact Spelling.isName_fieldName (isName_of_mem_fields valid isField)

end Names

/-- The fields of posts: the implicit ones, those of pages, and their own. -/
theorem fields_post :
    (blog.fields "Blog\\Post").members = implicitFields ++
      [("Title", .column .varchar), ("URLSegment", .column .varchar),
        ("Score", .column (.custom none)), ("AuthorID", .column .foreignKey),
        ("Author", .one "Blog\\Member"), ("Comments", .many "Comment")] := by
  rw [fields_of_hasClass rfl, lineage_post]
  rfl

end Catalog

end SchemaAssembly
