/-
This file writes constants in the schema language: on one line, or with every item of a list and
every member of an object on a line of its own.
-/

import SchemaAssembly.Constant
import SchemaAssembly.Sdl.Text

namespace SchemaAssembly.Sdl

/-- Writes parts between brackets: on one line with commas between them, or each on a line of its
own with a comma after it. Without parts nothing stands between the brackets. -/
def bracketed (layout : Layout) (opening closing : Char) (parts : List (List Char)) : List Char :=
  match layout with
  | .oneLine => opening :: ([',', ' '].intercalate parts ++ [closing])
  | .broken level =>
    if parts.isEmpty then [opening, closing]
    else
      opening :: (parts.flatMap (fun part => lineBreak (level + 1) ++ part ++ [',']) ++
        lineBreak level ++ [closing])

mutual

/-- Writes a constant. -/
def constant (layout : Layout) : Constant → List Char
  | .null => "null".toList
  | .boolean value => if value then "true".toList else "false".toList
  | .enumMember name => name.letters
  | .int digits => digits.toList
  | .float digits => digits.toList
  | .text content => valueText layout content.toList
  | .list items => bracketed layout '[' ']' (constants layout.deeper items)
  | .object members => bracketed layout '\x7b' '\x7d' (memberTexts layout.deeper members)

/-- Writes the items of a list. -/
def constants (layout : Layout) : List Constant → List (List Char)
  | [] => []
  | head :: rest => constant layout head :: constants layout rest

/-- Writes the members of an object. -/
def memberTexts (layout : Layout) : List (Name × Constant) → List (List Char)
  | [] => []
  | (name, value) :: rest =>
    (name.letters ++ ':' :: ' ' :: constant layout value) :: memberTexts layout rest

end

end SchemaAssembly.Sdl

namespace SchemaAssembly.Constant

/-- The text of a constant, with lists and objects broken up into lines. -/
def sdl (value : Constant) : String :=
  String.ofList (Sdl.constant (.broken 0) value)

end SchemaAssembly.Constant
