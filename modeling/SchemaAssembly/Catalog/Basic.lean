/-
This file defines catalogs of data classes: which classes there are, which columns and relations
they declare and inherit, and which types these have in a schema.

Every class has four implicit columns, and every relation to one object implies a column for the
key of that object. Declarations are collected from the farthest ancestor down to the class
itself, and a later declaration of a name replaces an earlier one in its place.
-/

import SchemaAssembly.Keyed
import SchemaAssembly.Catalog.Spelling

namespace SchemaAssembly

/-- The kinds of columns. A custom kind has a type in the schema if one is given. -/
inductive ColumnKind
  | varchar
  | text
  | htmlText
  | enumeration
  | date
  | datetime
  | time
  | int
  | bigInt
  | boolean
  | float
  | decimal
  | currency
  | primaryKey
  | foreignKey
  | custom (type : Option String)
  deriving DecidableEq

namespace ColumnKind

/-- The kinds without a parameter. -/
def simpleKinds : List ColumnKind :=
  [varchar, text, htmlText, enumeration, date, datetime, time, int, bigInt, boolean, float,
    decimal, currency, primaryKey, foreignKey]

/-- The name of a kind. -/
def name : ColumnKind → String
  | .varchar => "Varchar"
  | .text => "Text"
  | .htmlText => "HTMLText"
  | .enumeration => "Enum"
  | .date => "Date"
  | .datetime => "Datetime"
  | .time => "Time"
  | .int => "Int"
  | .bigInt => "BigInt"
  | .boolean => "Boolean"
  | .float => "Float"
  | .decimal => "Decimal"
  | .currency => "Currency"
  | .primaryKey => "PrimaryKey"
  | .foreignKey => "ForeignKey"
  | .custom _ => "Custom"

/-- The type of a column in a schema. -/
def schemaType : ColumnKind → Option String
  | .varchar | .text | .htmlText | .enumeration | .date | .datetime | .time => some "String"
  | .int | .bigInt => some "Int"
  | .boolean => some "Boolean"
  | .float | .decimal | .currency => some "Float"
  | .primaryKey | .foreignKey => some "ID"
  | .custom type => type

end ColumnKind

/-- A data class: what it declares, and the class it inherits from. -/
structure DataClass where
  parent : Option String
  columns : Mapping String ColumnKind
  hasOne : Mapping String String
  hasMany : Mapping String String

/-- The class that declares nothing. -/
def DataClass.empty : DataClass := ⟨none, ∅, ∅, ∅⟩

/-- What a name of a class stands for: a column, or a relation to one or to many objects of a
class. -/
inductive DataField
  | column (kind : ColumnKind)
  | one (dataClass : String)
  | many (dataClass : String)
  deriving DecidableEq

namespace DataField

/-- The type of a field in a schema. -/
def schemaType : DataField → Option String
  | .column kind => kind.schemaType
  | .one dataClass => some (Spelling.unqualified dataClass)
  | .many dataClass => some ("[" ++ Spelling.unqualified dataClass ++ "]")

end DataField

namespace DataClass

/-- What a class declares itself: its columns, its relations to one object, each after the key
that it implies, and its relations to many. -/
def declared (dataClass : DataClass) : List (String × DataField) :=
  dataClass.columns.members.map (fun column => (column.1, .column column.2)) ++
    dataClass.hasOne.members.flatMap (fun relation =>
      [(relation.1 ++ "ID", .column .foreignKey), (relation.1, .one relation.2)]) ++
    dataClass.hasMany.members.map fun relation => (relation.1, .many relation.2)

end DataClass

/-- A catalog of data classes. -/
structure Catalog where
  classes : Mapping String DataClass

namespace Catalog

/-- Whether there is a class with the given name. -/
def hasClass (catalog : Catalog) (name : String) : Bool :=
  catalog.classes.contains name

/-- A class and its ancestors, the farthest first. A class is left out of the search once it has
been found, so the search ends also where classes inherit from each other. -/
def lineageIn (classes : Mapping String DataClass) (name : String) : List (String × DataClass) :=
  match _found : classes.find? name with
  | none => []
  | some (found, dataClass) =>
    match dataClass.parent with
    | none => [(found, dataClass)]
    | some parent => lineageIn (classes.erase name) parent ++ [(found, dataClass)]
termination_by classes.size
decreasing_by exact Keyed.size_erase_lt _found

/-- A class of a catalog and its ancestors, the farthest first. -/
def lineage (catalog : Catalog) (name : String) : List (String × DataClass) :=
  lineageIn catalog.classes name

/-- The columns that every class has. -/
def implicitFields : List (String × DataField) :=
  [("ID", .column .primaryKey), ("ClassName", .column .varchar), ("Created", .column .datetime),
    ("LastEdited", .column .datetime)]

/-- The fields of a class in the spelling of the data layer. -/
def fields (catalog : Catalog) (name : String) : Mapping String DataField :=
  if catalog.hasClass name then
    Keyed.ofList (implicitFields ++
      (catalog.lineage name).flatMap fun ancestor => ancestor.2.declared)
  else ∅

/-- Whether a field of the data layer answers to a name: it is spelled so, or so with the first
letter raised, or its spelling in the schema is the name. -/
def answersTo (stored name : String) : Bool :=
  stored = name || stored = Text.capitalized name || Spelling.fieldName stored = name

/-- The first field of a class that answers to a name. -/
def findField (catalog : Catalog) (dataClass name : String) : Option DataField :=
  ((catalog.fields dataClass).members.find? fun field => answersTo field.1 name).map Prod.snd

/-- Whether some field of a class answers to a name. -/
def hasField (catalog : Catalog) (dataClass name : String) : Bool :=
  (catalog.findField dataClass name).isSome

/-- The type of the field of a class that answers to a name. -/
def typeOfField (catalog : Catalog) (dataClass name : String) : Option String :=
  (catalog.findField dataClass name).bind DataField.schemaType

/-- All fields of a class that have a type, in the spelling of the schema. -/
def schemaFields (catalog : Catalog) (dataClass : String) : Mapping String String :=
  Keyed.ofList ((catalog.fields dataClass).members.filterMap fun field =>
    field.2.schemaType.map fun type => (Spelling.fieldName field.1, type))

end Catalog

end SchemaAssembly
