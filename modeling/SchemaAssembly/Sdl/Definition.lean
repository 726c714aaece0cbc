/-
This file writes definitions in the schema language. A description stands on the lines before what
it describes, so arguments of which any has a description are put on lines of their own.
-/

import SchemaAssembly.Definition
import SchemaAssembly.Sdl.Constant

namespace SchemaAssembly.Sdl

/-- The description of something, on the lines before it; on one line there is no room for it. -/
def described (layout : Layout) (description : Option String) : List Char :=
  match layout, description with
  | .broken level, some description =>
    descriptionText level description.toList ++ lineBreak level
  | _, _ => []

/-- Writes the definition of an argument. -/
def argument (layout : Layout) (definition : ArgumentDefinition) : List Char :=
  described layout definition.description ++ definition.name.letters ++
    ':' :: ' ' :: definition.type.letters ++
    match definition.default? with
    | some value => ' ' :: '=' :: ' ' :: constant layout value
    | none => []

/-- Writes the arguments of a field, if there are any. -/
def arguments (level : Nat) (definitions : List ArgumentDefinition) : List Char :=
  if definitions.isEmpty then []
  else
    let layout : Layout :=
      if definitions.any fun definition => definition.description.isSome then .broken level
      else .oneLine
    bracketed layout '(' ')' (definitions.map (argument layout.deeper))

/-- Writes the definition of a field. -/
def field (level : Nat) (definition : FieldDefinition) : List Char :=
  described (.broken level) definition.description ++ definition.name.letters ++
    arguments level definition.arguments ++ ':' :: ' ' :: definition.type.letters

/-- Writes the definition of an object type. -/
def objectType (definition : ObjectDefinition) : List Char :=
  described (.broken 0) definition.description ++ "type ".toList ++ definition.name.letters ++
    ' ' :: '\x7b' :: definition.fields.flatMap (fun part => lineBreak 1 ++ field 1 part) ++
    lineBreak 0 ++ '\x7d' :: lineBreak 0

end SchemaAssembly.Sdl

namespace SchemaAssembly

/-- The text of the definition of an argument, with its parts broken up into lines. -/
def ArgumentDefinition.sdl (definition : ArgumentDefinition) : String :=
  String.ofList (Sdl.argument (.broken 0) definition)

/-- The text of the definition of a field. -/
def FieldDefinition.sdl (definition : FieldDefinition) : String :=
  String.ofList (Sdl.field 0 definition)

/-- The text of the definition of an object type. -/
def ObjectDefinition.sdl (definition : ObjectDefinition) : String :=
  String.ofList (Sdl.objectType definition)

end SchemaAssembly
