/-
This file proves that inheritance is sound whatever the classes of a catalog inherit from: classes
that are not there, themselves, or each other. The search for the ancestors of a class leaves out
what it has found already, so it ends, and it finds exactly the classes that can be reached from one
class to the next. A class therefore has every name that the class has from which it inherits. Its
own declarations are written last, so they stand against those of all ancestors, and what it does
not declare is stored as it is for the class from which it inherits, unless that one inherits from
it in turn.
-/

import Mathlib.Logic.Relation
import SchemaAssembly.Proofs.Catalog.Inheritance

namespace SchemaAssembly

namespace Catalog

/-! ### The search for ancestors -/

/-- Whether a class inherits from another that is there. -/
def InheritsFrom (classes : Mapping String DataClass) (child parent : String) : Prop :=
  ∃ dataClass, classes.get? child = some dataClass ∧ dataClass.parent = some parent ∧
    classes.contains parent = true

section Search

variable {classes : Mapping String DataClass} {name : String}

theorem lineageIn_of_unknown (unknown : classes.find? name = none) :
    lineageIn classes name = [] := by
  rw [lineageIn]
  split
  · rfl
  · next found => cases unknown.symm.trans found

/-- Induction on a search: it ends where the class is not there, and at a class that inherits from
none; else it goes on to the class from which this one inherits, among the others. -/
theorem lineageIn_induction
    {motive : Mapping String DataClass → String → List (String × DataClass) → Prop}
    (unknown : ∀ classes name, classes.find? name = none → motive classes name [])
    (root : ∀ classes name dataClass, classes.find? name = some (name, dataClass) →
      dataClass.parent = none → motive classes name [(name, dataClass)])
    (child : ∀ classes name dataClass parent, classes.find? name = some (name, dataClass) →
      dataClass.parent = some parent →
      motive (classes.erase name) parent (lineageIn (classes.erase name) parent) →
      motive classes name (lineageIn (classes.erase name) parent ++ [(name, dataClass)]))
    (classes : Mapping String DataClass) (name : String) :
    motive classes name (lineageIn classes name) := by
  cases found : classes.find? name with
  | none =>
    rw [lineageIn_of_unknown found]
    exact unknown classes name found
  | some entry =>
    obtain ⟨same, dataClass⟩ := entry
    obtain rfl : same = name := Keyed.key_of_find?_eq_some found
    cases inherits : dataClass.parent with
    | none =>
      rw [lineageIn_of_root found inherits]
      exact root classes same dataClass found inherits
    | some parent =>
      rw [lineageIn_of_parent found inherits]
      exact child classes same dataClass parent found inherits
        (lineageIn_induction unknown root child (classes.erase same) parent)
termination_by classes.size
decreasing_by exact Keyed.size_erase_lt found

/-- What is found among other classes than one is found among all. -/
theorem find?_of_find?_erase {unwanted wanted : String} {entry : String × DataClass}
    (found : (classes.erase unwanted).find? wanted = some entry) :
    unwanted ≠ wanted ∧ classes.find? wanted = some entry := by
  rw [Keyed.find?_erase] at found
  split at found
  · cases found
  · next other => exact ⟨other, found⟩

theorem InheritsFrom.of_erase {unwanted child parent : String}
    (inherits : InheritsFrom (classes.erase unwanted) child parent) :
    InheritsFrom classes child parent := by
  obtain ⟨dataClass, isChild, isParent, present⟩ := inherits
  rw [Keyed.contains_eq_isSome_find?, Option.isSome_iff_exists] at present
  obtain ⟨entry, found⟩ := present
  rw [Keyed.get?, Option.map_eq_some_iff] at isChild
  obtain ⟨childEntry, foundChild, rfl⟩ := isChild
  refine ⟨childEntry.2, ?_, isParent, ?_⟩
  · rw [Keyed.get?, (find?_of_find?_erase foundChild).2]
    rfl
  · rw [Keyed.contains_eq_isSome_find?, (find?_of_find?_erase found).2]
    rfl

theorem mem_of_mem_lineageIn {entry : String × DataClass}
    (found : entry ∈ lineageIn classes name) : entry ∈ classes.members := by
  revert entry
  refine lineageIn_induction
    (motive := fun classes _ lineage => ∀ {entry}, entry ∈ lineage → entry ∈ classes.members)
    ?_ ?_ ?_ classes name
  · intro classes name _ entry isFound
    cases isFound
  · intro classes name dataClass found _ entry isFound
    rw [List.mem_singleton] at isFound
    exact isFound ▸ List.mem_of_find?_eq_some found
  · intro classes name dataClass parent found _ inductionHypothesis entry isFound
    rcases List.mem_append.mp isFound with isAncestor | isLast
    · exact (List.mem_filter.mp (inductionHypothesis isAncestor)).1
    · rw [List.mem_singleton] at isLast
      exact isLast ▸ List.mem_of_find?_eq_some found

/-- No class is found twice. -/
theorem nodup_lineageIn (classes : Mapping String DataClass) (name : String) :
    ((lineageIn classes name).map Prod.fst).Nodup := by
  refine lineageIn_induction (motive := fun _ _ lineage => (lineage.map Prod.fst).Nodup)
    ?_ ?_ ?_ classes name
  · exact fun _ _ _ => List.nodup_nil
  · exact fun _ _ _ _ _ => List.pairwise_singleton _ _
  · intro classes name dataClass parent _ _ inductionHypothesis
    rw [List.map_append]
    refine List.nodup_append.mpr ⟨inductionHypothesis, List.pairwise_singleton _ _, ?_⟩
    intro ancestor isAncestor last isLast same
    obtain ⟨entry, isEntry, rfl⟩ := List.mem_map.mp isAncestor
    have isOther := (List.mem_filter.mp (mem_of_mem_lineageIn isEntry)).2
    rw [List.map_singleton, List.mem_singleton] at isLast
    exact of_decide_eq_true isOther (same.trans isLast)

theorem length_lineageIn_le (classes : Mapping String DataClass) (name : String) :
    (lineageIn classes name).length ≤ classes.size := by
  refine lineageIn_induction (motive := fun classes _ lineage => lineage.length ≤ classes.size)
    ?_ ?_ ?_ classes name
  · exact fun _ _ _ => Nat.zero_le _
  · exact fun _ _ _ found _ => Nat.lt_of_le_of_lt (Nat.zero_le _) (Keyed.size_erase_lt found)
  · intro classes name dataClass parent found _ inductionHypothesis
    rw [List.length_append, List.length_singleton]
    exact Nat.lt_of_le_of_lt inductionHypothesis (Keyed.size_erase_lt found)

/-- A class that is there comes last. -/
theorem lineageIn_eq_append {entry : String × DataClass} (found : classes.find? name = some entry) :
    ∃ earlier, lineageIn classes name = earlier ++ [entry] := by
  obtain ⟨same, dataClass⟩ := entry
  obtain rfl : same = name := Keyed.key_of_find?_eq_some found
  cases inherits : dataClass.parent with
  | none => exact ⟨[], lineageIn_of_root found inherits⟩
  | some parent => exact ⟨_, lineageIn_of_parent found inherits⟩

/-- Every class that is found can be reached from one class to the next. -/
theorem reaches_of_mem_lineageIn {entry : String × DataClass}
    (found : entry ∈ lineageIn classes name) :
    Relation.ReflTransGen (InheritsFrom classes) name entry.1 := by
  revert entry
  refine lineageIn_induction
    (motive := fun classes name lineage => ∀ {entry : String × DataClass}, entry ∈ lineage →
      Relation.ReflTransGen (InheritsFrom classes) name entry.1) ?_ ?_ ?_ classes name
  · intro classes name _ entry isFound
    cases isFound
  · intro classes name dataClass _ _ entry isFound
    rw [List.mem_singleton] at isFound
    rw [isFound]
  · intro classes name dataClass parent found inherits inductionHypothesis entry isFound
    rcases List.mem_append.mp isFound with isAncestor | isLast
    · have fromParent : Relation.ReflTransGen (InheritsFrom classes) parent entry.1 :=
        Relation.ReflTransGen.mono (fun _ _ => InheritsFrom.of_erase) _ _
          (inductionHypothesis isAncestor)
      have present : classes.contains parent = true := by
        rw [Keyed.contains_eq_isSome_find?, Option.isSome_iff_ne_none]
        intro absent
        have unknown : (classes.erase name).find? parent = none := by
          rw [Keyed.find?_erase, absent, ite_self]
        rw [lineageIn_of_unknown unknown] at isAncestor
        cases isAncestor
      have step : InheritsFrom classes name parent :=
        ⟨dataClass, by rw [Keyed.get?, found]; rfl, inherits, present⟩
      exact .head step fromParent
    · rw [List.mem_singleton] at isLast
      rw [isLast]

/-- The class from which a class inherits that is found, is found, too. Where the search comes back
to it, the search began there. -/
theorem mem_lineageIn_of_inherits {entry parent : String × DataClass}
    (isEntry : entry ∈ lineageIn classes name) (inherits : entry.2.parent = some parent.1)
    (found : classes.find? parent.1 = some parent) : parent ∈ lineageIn classes name := by
  revert entry parent
  refine lineageIn_induction
    (motive := fun classes _ lineage => ∀ {entry parent : String × DataClass}, entry ∈ lineage →
      entry.2.parent = some parent.1 → classes.find? parent.1 = some parent → parent ∈ lineage)
    ?_ ?_ ?_ classes name
  · intro classes name _ entry parent isEntry
    cases isEntry
  · intro classes name dataClass _ root entry parent isEntry inherits
    rw [List.mem_singleton] at isEntry
    rw [isEntry, root] at inherits
    cases inherits
  · intro classes name dataClass next found inheritsNext inductionHypothesis entry parent isEntry
      inherits foundParent
    by_cases isName : name = parent.1
    · rw [← isName, found, Option.some.injEq] at foundParent
      rw [← foundParent]
      exact List.mem_append_right _ (List.mem_singleton_self _)
    · have foundElsewhere : (classes.erase name).find? parent.1 = some parent := by
        rw [Keyed.find?_erase, if_neg isName, foundParent]
      refine List.mem_append_left _ ?_
      rcases List.mem_append.mp isEntry with isAncestor | isLast
      · exact inductionHypothesis isAncestor inherits foundElsewhere
      · rw [List.mem_singleton] at isLast
        rw [isLast, inheritsNext, Option.some.injEq] at inherits
        rw [inherits]
        obtain ⟨earlier, ending⟩ := lineageIn_eq_append foundElsewhere
        rw [ending]
        exact List.mem_append_right _ (List.mem_singleton_self _)

/-- A search that does not find a class goes as it would without this class. -/
theorem lineageIn_erase {unwanted : String}
    (notFound : unwanted ∉ (lineageIn classes name).map Prod.fst) :
    lineageIn (classes.erase unwanted) name = lineageIn classes name := by
  revert notFound
  refine lineageIn_induction
    (motive := fun classes name lineage => unwanted ∉ lineage.map Prod.fst →
      lineageIn (classes.erase unwanted) name = lineage) ?_ ?_ ?_ classes name
  · intro classes name unknown _
    refine lineageIn_of_unknown ?_
    rw [Keyed.find?_erase, unknown, ite_self]
  · intro classes name dataClass found root notFound
    have other : ¬unwanted = name := fun same => notFound (List.mem_singleton.mpr same)
    refine lineageIn_of_root ?_ root
    rw [Keyed.find?_erase, if_neg other, found]
  · intro classes name dataClass parent found inherits inductionHypothesis notFound
    rw [List.map_append, List.mem_append, not_or] at notFound
    have other : ¬unwanted = name := fun same => notFound.2 (List.mem_singleton.mpr same)
    have foundElsewhere : (classes.erase unwanted).find? name = some (name, dataClass) := by
      rw [Keyed.find?_erase, if_neg other, found]
    rw [lineageIn_of_parent foundElsewhere inherits, Keyed.erase_erase,
      inductionHypothesis notFound.1]

/-- The search finds exactly the classes that are reached from one class to the next. -/
theorem mem_lineageIn_iff {other : String} {dataClass : DataClass} :
    (other, dataClass) ∈ lineageIn classes name ↔
      classes.contains name = true ∧ Relation.ReflTransGen (InheritsFrom classes) name other ∧
        classes.get? other = some dataClass := by
  constructor
  · intro found
    refine ⟨?_, reaches_of_mem_lineageIn found, ?_⟩
    · rw [Keyed.contains_eq_isSome_find?, Option.isSome_iff_ne_none]
      intro unknown
      rw [lineageIn_of_unknown unknown] at found
      cases found
    · exact Keyed.get?_eq_some_iff.mpr (mem_of_mem_lineageIn found)
  · rintro ⟨present, reaches, given⟩
    rw [Keyed.contains_eq_isSome_find?, Option.isSome_iff_exists] at present
    obtain ⟨start, foundStart⟩ := present
    suffices onTheWay : ∀ entry, classes.find? other = some entry →
        entry ∈ lineageIn classes name from
      onTheWay _ (Keyed.find?_key_of_mem (Keyed.mem_of_get?_eq_some given))
    clear given
    induction reaches with
    | refl =>
      intro entry found
      obtain ⟨earlier, ending⟩ := lineageIn_eq_append found
      rw [ending]
      exact List.mem_append_right _ (List.mem_singleton_self _)
    | tail _ step inductionHypothesis =>
      intro entry found
      obtain ⟨child, isChild, inherits, -⟩ := step
      have foundChild := Keyed.find?_key_of_mem (Keyed.mem_of_get?_eq_some isChild)
      obtain rfl := Keyed.key_of_find?_eq_some found
      exact mem_lineageIn_of_inherits (inductionHypothesis _ foundChild) inherits found

end Search

/-- What the ancestry of a class is: it lists the classes that are reached from one class to the
next, none of them twice, and the class itself comes last. -/
structure IsAncestry (catalog : Catalog) (name : String) (ancestry : List (String × DataClass)) :
    Prop where
  reached : ∀ other dataClass, (other, dataClass) ∈ ancestry ↔
    catalog.hasClass name = true ∧
      Relation.ReflTransGen (InheritsFrom catalog.classes) name other ∧
      catalog.classes.get? other = some dataClass
  distinct : (ancestry.map Prod.fst).Nodup
  bounded : ancestry.length ≤ catalog.classes.size
  endsIn : ∀ dataClass, catalog.classes.get? name = some dataClass →
    ∃ earlier, ancestry = earlier ++ [(name, dataClass)]

theorem isAncestry_lineage (catalog : Catalog) (name : String) :
    catalog.IsAncestry name (catalog.lineage name) where
  reached _ _ := mem_lineageIn_iff
  distinct := nodup_lineageIn catalog.classes name
  bounded := length_lineageIn_le catalog.classes name
  endsIn _ given :=
    lineageIn_eq_append (Keyed.find?_key_of_mem (Keyed.mem_of_get?_eq_some given))

end Catalog

/-! ### What a class declares under a name -/

namespace DataClass

/-- What a class declares itself under a name, as a column or as a relation. -/
inductive Declares (dataClass : DataClass) (name : String) : DataField → Prop
  | column {kind : ColumnKind} (given : dataClass.columns.get? name = some kind) :
    Declares dataClass name (.column kind)
  | one {related : String} (given : dataClass.hasOne.get? name = some related) :
    Declares dataClass name (.one related)
  | many {related : String} (given : dataClass.hasMany.get? name = some related) :
    Declares dataClass name (.many related)

/-- Whether a name is that of a key which a relation of a class implies. -/
def Implies (dataClass : DataClass) (name : String) : Prop :=
  ∃ relation ∈ dataClass.hasOne.keys, name = relation ++ "ID"

theorem mem_declared_iff {dataClass : DataClass} {name : String} {field : DataField} :
    (name, field) ∈ dataClass.declared ↔
      dataClass.Declares name field ∨
        (dataClass.Implies name ∧ field = .column .foreignKey) := by
  rw [DataClass.declared, List.mem_append, List.mem_append, List.mem_map, List.mem_flatMap,
    List.mem_map]
  constructor
  · rintro ((⟨column, present, ⟨⟩⟩ | ⟨relation, present, isOne⟩) | ⟨relation, present, ⟨⟩⟩)
    · exact Or.inl (.column (Keyed.get?_eq_some_iff.mpr present))
    · rw [List.mem_cons, List.mem_singleton] at isOne
      rcases isOne with ⟨⟨⟩⟩ | ⟨⟨⟩⟩
      · exact Or.inr ⟨⟨relation.1, List.mem_map_of_mem present, rfl⟩, rfl⟩
      · exact Or.inl (.one (Keyed.get?_eq_some_iff.mpr present))
    · exact Or.inl (.many (Keyed.get?_eq_some_iff.mpr present))
  · rintro ((given | given | given) | ⟨⟨relation, isKey, rfl⟩, rfl⟩)
    · exact Or.inl (Or.inl ⟨_, Keyed.get?_eq_some_iff.mp given, rfl⟩)
    · exact Or.inl (Or.inr ⟨_, Keyed.get?_eq_some_iff.mp given,
        List.mem_cons_of_mem _ (List.mem_singleton_self _)⟩)
    · exact Or.inr ⟨_, Keyed.get?_eq_some_iff.mp given, rfl⟩
    · obtain ⟨entry, present, rfl⟩ := List.mem_map.mp isKey
      exact Or.inl (Or.inr ⟨entry, present, List.mem_cons_self⟩)

/-- A name that a class declares once, and does not imply, stands for what is declared. -/
theorem get?_ofList_declared {dataClass : DataClass} {name : String} {field : DataField}
    (declares : dataClass.Declares name field)
    (once : ∀ other, dataClass.Declares name other → other = field)
    (notImplied : ¬dataClass.Implies name) :
    (Keyed.ofList dataClass.declared : Mapping String DataField).get? name = some field := by
  have isKey : name ∈ (Keyed.ofList dataClass.declared : Mapping String DataField).keys :=
    Keyed.mem_keys_ofList.mpr
      (List.mem_map_of_mem (f := Prod.fst) (mem_declared_iff.mpr (Or.inl declares)))
  cases found : (Keyed.ofList dataClass.declared : Mapping String DataField).get? name with
  | none => exact absurd isKey (Keyed.get?_eq_none_iff.mp found)
  | some other =>
    have isDeclared := Keyed.mem_of_mem_ofList (Keyed.mem_of_get?_eq_some found)
    rcases mem_declared_iff.mp isDeclared with alsoDeclared | ⟨implied, -⟩
    · rw [once other alsoDeclared]
    · exact absurd implied notImplied

theorem get?_ofList_declared_eq_none {dataClass : DataClass} {name : String}
    (notDeclared : ∀ field, ¬dataClass.Declares name field)
    (notImplied : ¬dataClass.Implies name) :
    (Keyed.ofList dataClass.declared : Mapping String DataField).get? name = none := by
  refine Option.eq_none_iff_forall_ne_some.mpr fun field found => ?_
  have isDeclared := Keyed.mem_of_mem_ofList (Keyed.mem_of_get?_eq_some found)
  rcases mem_declared_iff.mp isDeclared with declares | ⟨implied, -⟩
  · exact notDeclared field declares
  · exact notImplied implied

end DataClass

namespace Catalog

variable {catalog : Catalog} {name : String} {dataClass : DataClass}

/-! ### The names of a class and of its ancestors -/

theorem mem_keys_fields_iff (present : catalog.hasClass name = true) {field : String} :
    field ∈ (catalog.fields name).keys ↔ field ∈ implicitFields.map Prod.fst ∨
      ∃ ancestor ∈ catalog.lineage name, field ∈ ancestor.2.declared.map Prod.fst := by
  rw [fields_of_hasClass present, Keyed.mem_keys_ofList, List.map_append, List.mem_append,
    List.map_flatMap, List.mem_flatMap]

theorem hasField_iff {field : String} :
    catalog.hasField name field = true ↔
      ∃ stored ∈ (catalog.fields name).keys, answersTo stored field = true := by
  rw [hasField, findField, Option.isSome_map, List.find?_isSome]
  constructor
  · rintro ⟨stored, present, answers⟩
    exact ⟨stored.1, List.mem_map_of_mem present, answers⟩
  · rintro ⟨_, isKey, answers⟩
    obtain ⟨stored, present, rfl⟩ := List.mem_map.mp isKey
    exact ⟨stored, present, answers⟩

theorem hasClass_of_get? (given : catalog.classes.get? name = some dataClass) :
    catalog.hasClass name = true := by
  rw [hasClass, Keyed.contains_iff_mem_keys]
  exact List.mem_map_of_mem (f := Prod.fst) (Keyed.mem_of_get?_eq_some given)

/-- The ancestors of the class from which a class inherits are its ancestors, too. -/
theorem mem_lineage_of_inherits {parent : String}
    (given : catalog.classes.get? name = some dataClass)
    (inherits : dataClass.parent = some parent) (known : catalog.hasClass parent = true)
    {ancestor : String × DataClass} (isAncestor : ancestor ∈ catalog.lineage parent) :
    ancestor ∈ catalog.lineage name := by
  obtain ⟨-, reaches, isClass⟩ := mem_lineageIn_iff.mp isAncestor
  have step : InheritsFrom catalog.classes name parent := ⟨dataClass, given, inherits, known⟩
  exact mem_lineageIn_iff.mpr ⟨hasClass_of_get? given, .head step reaches, isClass⟩

/-- What is found under a name of a class: what it declares itself, else what the classes before it
have under the name. -/
theorem get?_fields_of_lineage {earlier : List (String × DataClass)}
    (present : catalog.hasClass name = true)
    (ending : catalog.lineage name = earlier ++ [(name, dataClass)]) (field : String) :
    (catalog.fields name).get? field =
      ((Keyed.ofList dataClass.declared : Mapping String DataField).get? field).or
        ((Keyed.ofList (implicitFields ++ earlier.flatMap fun ancestor => ancestor.2.declared) :
          Mapping String DataField).get? field) := by
  rw [fields_of_hasClass present, ending, List.flatMap_append, List.flatMap_singleton,
    ← List.append_assoc, Keyed.get?, Keyed.find?_ofList_append, Option.map_or]
  rfl

/-- A class that is not among the ancestors of the one from which it inherits comes after them. -/
theorem lineage_of_inherits {parent : String}
    (given : catalog.classes.get? name = some dataClass)
    (inherits : dataClass.parent = some parent)
    (apart : name ∉ (catalog.lineage parent).map Prod.fst) :
    catalog.lineage name = catalog.lineage parent ++ [(name, dataClass)] := by
  have found := Keyed.find?_key_of_mem (Keyed.mem_of_get?_eq_some given)
  rw [lineage, lineageIn_of_parent found inherits, lineageIn_erase apart]
  rfl

/-! ### Inheritance -/

/-- What a class has from the class from which it inherits: all its names, under which fields are
looked up, and also what is stored for it under the names that the class does not declare or imply
itself, unless the one inherits from the other in turn. -/
structure InheritsAll (catalog : Catalog) (name : String) (dataClass : DataClass)
    (parent : String) : Prop where
  names : ∀ field ∈ (catalog.fields parent).keys, field ∈ (catalog.fields name).keys
  lookups : ∀ field, catalog.hasField parent field = true → catalog.hasField name field = true
  stored : name ∉ (catalog.lineage parent).map Prod.fst →
    ∀ field content, (catalog.fields parent).get? field = some content →
      (∀ own, ¬dataClass.Declares field own) → ¬dataClass.Implies field →
        (catalog.fields name).get? field = some content

theorem inheritsAll_of_parent {parent : String}
    (given : catalog.classes.get? name = some dataClass)
    (inherits : dataClass.parent = some parent) (known : catalog.hasClass parent = true) :
    catalog.InheritsAll name dataClass parent := by
  have present := hasClass_of_get? given
  have names : ∀ field ∈ (catalog.fields parent).keys, field ∈ (catalog.fields name).keys := by
    intro field isKey
    rw [mem_keys_fields_iff known] at isKey
    rw [mem_keys_fields_iff present]
    refine isKey.imp_right fun ⟨ancestor, isAncestor, declared⟩ => ?_
    exact ⟨ancestor, mem_lineage_of_inherits given inherits known isAncestor, declared⟩
  refine ⟨names, fun field isFound => ?_, fun apart field content stored notDeclared
    notImplied => ?_⟩
  · obtain ⟨stored, isKey, answers⟩ := hasField_iff.mp isFound
    exact hasField_iff.mpr ⟨stored, names stored isKey, answers⟩
  · rw [get?_fields_of_lineage present (lineage_of_inherits given inherits apart),
      DataClass.get?_ofList_declared_eq_none notDeclared notImplied, Option.none_or,
      ← fields_of_hasClass known]
    exact stored

/-- The ancestry of a class is found whatever its classes inherit from. A class has all names and
all fields of the class from which it inherits; what is stored for this one under a name is stored
for the class, too, if the class does not declare or imply the name and is no ancestor of its own
ancestor; and a name that the class declares once stands for what it declares, whatever its
ancestors declare. -/
theorem inheritance_isSound (catalog : Catalog) (name : String) :
    catalog.IsAncestry name (catalog.lineage name) ∧
    ∀ dataClass, catalog.classes.get? name = some dataClass →
      (∀ parent, dataClass.parent = some parent → catalog.hasClass parent = true →
        catalog.InheritsAll name dataClass parent) ∧
      ∀ field content, dataClass.Declares field content →
        (∀ other, dataClass.Declares field other → other = content) →
        ¬dataClass.Implies field → (catalog.fields name).get? field = some content := by
  refine ⟨catalog.isAncestry_lineage name, fun dataClass given => ⟨fun parent inherits known => ?_,
    fun field content declares once notImplied => ?_⟩⟩
  · exact inheritsAll_of_parent given inherits known
  · obtain ⟨earlier, ending⟩ := (catalog.isAncestry_lineage name).endsIn dataClass given
    rw [get?_fields_of_lineage (hasClass_of_get? given) ending,
      DataClass.get?_ofList_declared declares once notImplied, Option.some_or]

/-- A catalog of three classes: pages are records, and records and entries inherit from each other.
Pages have a title of their own. -/
def looped : Catalog where
  classes := Keyed.ofList
    [("Page", ⟨some "Record", Keyed.ofList [("Title", .int)], ∅, ∅⟩),
      ("Record", ⟨some "Entry", Keyed.ofList [("Title", .varchar)], ∅, ∅⟩),
      ("Entry", ⟨some "Record", ∅, Keyed.ofList [("Author", "Member")], ∅⟩)]

/-- Pages have the authors of entries, and a title of their own. -/
theorem inheritance_isSound_looped :
    let page : DataClass := ⟨some "Record", Keyed.ofList [("Title", .int)], ∅, ∅⟩
    looped.classes.get? "Page" = some page ∧ page.parent = some "Record" ∧
      looped.hasClass "Record" = true ∧
      (looped.fields "Page").get? "Title" = some (.column .int) ∧
      (looped.fields "Page").get? "Author" = some (.one "Member") ∧
      looped.hasField "Page" "authorID" = true ∧
      (looped.lineage "Page").map Prod.fst = ["Entry", "Record", "Page"] := by
  intro page
  have ofRecord : looped.lineage "Record" =
      [("Entry", ⟨some "Record", ∅, Keyed.ofList [("Author", "Member")], ∅⟩),
        ("Record", ⟨some "Entry", Keyed.ofList [("Title", .varchar)], ∅, ∅⟩)] := by
    rw [lineage, lineageIn_of_parent rfl rfl, lineageIn_of_parent rfl rfl,
      lineageIn_of_unknown rfl]
    rfl
  have apart : "Page" ∉ (looped.lineage "Record").map Prod.fst := by
    rw [ofRecord]
    decide
  have titles : ∀ other, page.Declares "Title" other → other = .column .int := by
    rintro _ (given | given | given)
    · exact congrArg DataField.column (Option.some.inj given).symm
    · cases given
    · cases given
  have noAuthors : ∀ own, ¬page.Declares "Author" own := by
    rintro _ (given | given | given) <;> cases given
  have noKeys : ∀ name, ¬page.Implies name := by
    rintro name ⟨relation, isKey, -⟩
    exact List.not_mem_nil isKey
  obtain ⟨-, ofPage⟩ := inheritance_isSound looped "Page"
  obtain ⟨fromParent, own⟩ := ofPage page rfl
  have all := fromParent "Record" rfl rfl
  have ofRecords : (looped.fields "Record").members = implicitFields ++
      [("AuthorID", .column .foreignKey), ("Author", .one "Member"),
        ("Title", .column .varchar)] := by
    rw [fields_of_hasClass rfl, ofRecord]
    rfl
  refine ⟨rfl, rfl, rfl, ?_, ?_, ?_, ?_⟩
  · exact own "Title" (.column .int) (.column rfl) titles (noKeys "Title")
  · refine all.stored apart "Author" (.one "Member") ?_ noAuthors (noKeys "Author")
    rw [Keyed.get?, Keyed.find?, ofRecords]
    decide +kernel
  · refine all.lookups "authorID" ?_
    rw [hasField, findField, ofRecords]
    decide +kernel
  · rw [lineage_of_inherits rfl rfl apart, ofRecord]
    rfl

end Catalog

end SchemaAssembly
