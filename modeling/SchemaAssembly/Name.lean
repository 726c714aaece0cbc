/-
This file defines names: a letter or underscore followed by letters, digits and underscores, all
of them ASCII. A `Name` carries the proof of its shape, so whatever is built from names holds
valid ones only.
-/

namespace SchemaAssembly

/-- The characters with which a name starts. -/
def isNameStart (letter : Char) : Bool :=
  letter == '_' || letter.isAlpha

/-- The characters with which a name goes on. -/
def isNamePart (letter : Char) : Bool :=
  letter == '_' || letter.isAlphanum

/-- Whether a text is a name. -/
def isNameText : List Char → Bool
  | [] => false
  | first :: rest => isNameStart first && rest.all isNamePart

/-- A name: a text in the shape of one. -/
structure Name where
  letters : List Char
  valid : isNameText letters = true
  deriving DecidableEq

namespace Name

/-- The text of a name. -/
def text (name : Name) : String :=
  String.ofList name.letters

/-- The name with the given text, if the text has the shape of one. -/
def ofText? (text : String) : Option Name :=
  if valid : isNameText text.toList = true then some ⟨text.toList, valid⟩ else none

/-- Names with the same characters are the same. -/
theorem ext {first second : Name} (equal : first.letters = second.letters) : first = second := by
  cases first
  cases second
  cases equal
  rfl

theorem ofText?_text (name : Name) : ofText? name.text = some name := by
  simp [ofText?, text, name.valid]

theorem text_of_ofText?_eq_some {text : String} {name : Name} (read : ofText? text = some name) :
    name.text = text := by
  unfold ofText? at read
  split at read
  · cases read
    simp [Name.text]
  · simp at read

/-- A text is read as the name of which it is the text. -/
theorem ofText?_eq_some_iff {text : String} {name : Name} :
    ofText? text = some name ↔ name.text = text :=
  ⟨text_of_ofText?_eq_some, fun same => same ▸ ofText?_text name⟩

theorem isSome_ofText? (text : String) : (ofText? text).isSome = isNameText text.toList := by
  unfold ofText?
  split
  · next valid => simp [valid]
  · next invalid => simp [invalid]

end Name

/-- Whether a text is a single name. -/
def isName (text : String) : Bool :=
  isNameText text.toList

/-- The text of a name is valid. -/
theorem Name.isName_text (name : Name) : isName name.text = true := by
  rw [isName, Name.text, String.toList_ofList]
  exact name.valid

end SchemaAssembly
