/-
This file reads catalogs of data classes from JSON. A class is given by the names of its parts or
by their positions. Parts that are not known are passed over unread; a part of a class that is
given twice is a mistake, while a class, column or relation that is given twice keeps its place
and takes the later content.
-/

import SchemaAssembly.Catalog.Basic
import SchemaAssembly.Json.Reader

namespace SchemaAssembly

open Json

/-- How the settings of a custom column kind may be given: by name only, or also by position. -/
inductive CustomForm
  | byName
  | byPosition
  deriving DecidableEq

namespace Catalog

/-- Reads a text. -/
def readText : Written → Option String
  | .text units => Written.stringOf units
  | _ => none

/-- Reads a text or nothing. -/
def readOptionalText : Written → Option (Option String)
  | .null => some none
  | .text units => (Written.stringOf units).map some
  | _ => none

/-- The members of an object with their keys read. -/
def readMembers : Written → Option (List (String × Written))
  | .object members => members.mapM fun (units, value) =>
      (Written.stringOf units).map fun key => (key, value)
  | _ => none

/-- Reads a mapping, given how its values are read. -/
def readMapping {ν : Type} (readValue : Written → Option ν) (written : Written) :
    Option (Mapping String ν) := do
  let members ← readMembers written
  let entries ← members.mapM fun (key, value) => (readValue value).map fun read => (key, read)
  return Keyed.ofList entries

/-- Reads the part of an object under a key: what is given there, or the default when nothing
is. A key that is given twice is a mistake. -/
def readPart {ν : Type} (members : List (String × Written)) (key : String)
    (readValue : Written → Option ν) (default : ν) : Option ν :=
  match members.filter fun member => member.1 = key with
  | [] => some default
  | [(_, value)] => readValue value
  | _ => none

/-- Reads the settings of a custom column kind. -/
def readCustom (form : CustomForm) : Written → Option ColumnKind
  | .object members => do
    let named ← readMembers (.object members)
    let type ← readPart named "graphql_type" readOptionalText none
    return .custom type
  | .array [] => if form = .byPosition then some (.custom none) else none
  | .array [value] =>
    if form = .byPosition then (readOptionalText value).map .custom else none
  | _ => none

/-- The column kind without settings that has a given name. -/
def simpleKind (name : String) : Option ColumnKind :=
  ColumnKind.simpleKinds.find? fun kind => kind.name = name

/-- Reads a column kind: the name of one without settings, or an object with the name of a kind
as its only key and its settings as value, which are null where there are none. -/
def readKind (form : CustomForm) : Written → Option ColumnKind
  | .text units => (Written.stringOf units).bind simpleKind
  | .object [(units, settings)] => do
    let name ← Written.stringOf units
    if name = (ColumnKind.custom none).name then
      readCustom form settings
    else
      match settings with
      | .null => simpleKind name
      | _ => none
  | _ => none

/-- Reads a data class. -/
def readClass (form : CustomForm) : Written → Option DataClass
  | .object members => do
    let named ← readMembers (.object members)
    let parent ← readPart named "parent" readOptionalText none
    let columns ← readPart named "db" (readMapping (readKind form)) ∅
    let hasOne ← readPart named "has_one" (readMapping readText) ∅
    let hasMany ← readPart named "has_many" (readMapping readText) ∅
    return ⟨parent, columns, hasOne, hasMany⟩
  | .array items =>
    if 4 < items.length then none
    else do
      let parent ← (items[0]?.map readOptionalText).getD (some none)
      let columns ← (items[1]?.map (readMapping (readKind form))).getD (some ∅)
      let hasOne ← (items[2]?.map (readMapping readText)).getD (some ∅)
      let hasMany ← (items[3]?.map (readMapping readText)).getD (some ∅)
      return ⟨parent, columns, hasOne, hasMany⟩
  | _ => none

/-- Reads a catalog. -/
def read (form : CustomForm) (written : Written) : Option Catalog :=
  (readMapping (readClass form) written).map Catalog.mk

/-- Reads a catalog from the text of a file. -/
def parse (text : String) : Option Catalog :=
  (Written.read? text).bind (read .byPosition)

end Catalog

end SchemaAssembly
