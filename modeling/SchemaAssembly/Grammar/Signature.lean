/-
This file reads the compact definition of a field: its name, and in parentheses the definitions
of its arguments, each with a type and perhaps a default.

A definition that goes wrong is reported where it goes wrong if it is the first of the list, or
once its default has been begun; a later one that goes wrong earlier is reported at its name, for
there the list could have ended.
-/

import SchemaAssembly.Grammar.Constant
import SchemaAssembly.Grammar.TypeRef

namespace SchemaAssembly

/-- The definition of an argument within that of a field. -/
structure InlineArgument where
  name : Name
  type : TypeRef
  default? : Option Constant

/-- The compact definition of a field. -/
structure Signature where
  name : Name
  arguments : List InlineArgument

namespace Grammar

/-- The default of an argument, if an equals sign announces one. -/
def withDefault (name : Name) (type : TypeRef) : List Placed → Reading InlineArgument
  | ⟨.mark .equals, _⟩ :: rest =>
    match readConstant rest with
    | .ok (constant, after) => .read ⟨name, type, some constant⟩ after
    | .error position => .broken position
  | rest => .read ⟨name, type, none⟩ rest

/-- Reads the definition of an argument. -/
def readArgument : List Placed → Reading InlineArgument
  | ⟨.name name, _⟩ :: ⟨.mark .colon, _⟩ :: rest =>
    match readType rest with
    | .read type after => withDefault name type after
    | .missing position => .missing position
    | .broken position => .broken position
  | ⟨.name _, _⟩ :: rest => .missing (position rest)
  | tokens => .missing (position tokens)

theorem withDefault_le {name : Name} {type : TypeRef} {tokens rest : List Placed}
    {argument : InlineArgument} (read : withDefault name type tokens = .read argument rest) :
    rest.length ≤ tokens.length := by
  unfold withDefault at read
  split at read
  · split at read
    · next inner =>
      cases read
      have := readFrom_shorter inner
      simp only [List.length_cons]
      omega
    · simp at read
  · cases read
    exact Nat.le_refl _

theorem readArgument_shorter {tokens rest : List Placed} {argument : InlineArgument}
    (read : readArgument tokens = .read argument rest) : rest.length < tokens.length := by
  unfold readArgument at read
  split at read
  · split at read
    · next inner =>
      have type := readType_shorter inner
      have default := withDefault_le read
      simp only [List.length_cons]
      omega
    all_goals simp at read
  all_goals simp at read

/-- Reads as many definitions of arguments as there are; stops before one that is not there. -/
def readFurther (tokens : List Placed) : Except (List Char) (List InlineArgument × List Placed) :=
  match _read : readArgument tokens with
  | .read argument rest =>
    match readFurther rest with
    | .ok (others, after) => .ok (argument :: others, after)
    | .error position => .error position
  | .missing _ => .ok ([], tokens)
  | .broken position => .error position
termination_by tokens.length
decreasing_by exact readArgument_shorter _read

/-- Reads the definitions of arguments, of which there has to be at least one. -/
def readArguments (tokens : List Placed) :
    Except (List Char) (List InlineArgument × List Placed) :=
  match readArgument tokens with
  | .read argument rest =>
    match readFurther rest with
    | .ok (others, after) => .ok (argument :: others, after)
    | .error position => .error position
  | .missing position => .error position
  | .broken position => .error position

/-- Reads the definition of a field. -/
def readSignature : List Placed → Except (List Char) (Signature × List Placed)
  | ⟨.name name, _⟩ :: ⟨.mark .openParenthesis, _⟩ :: rest =>
    match readArguments rest with
    | .ok (arguments, ⟨.mark .closeParenthesis, _⟩ :: after) => .ok (⟨name, arguments⟩, after)
    | .ok (_, after) => .error (position after)
    | .error position => .error position
  | ⟨.name name, _⟩ :: rest => .ok (⟨name, []⟩, rest)
  | tokens => .error (position tokens)

end Grammar

open Grammar

namespace InlineArgument

/-- Reads a text that holds definitions of arguments and ignored text. -/
def parseAll (text : String) : Except SyntaxError (List InlineArgument) :=
  let source := text.toList
  match readArguments (tokens source) with
  | .ok (arguments, []) => .ok arguments
  | .ok (_, rest) => .error (.before source (position rest))
  | .error position => .error (.before source position)

end InlineArgument

namespace Signature

/-- Reads a text that holds the definition of one field and ignored text. -/
def parse (text : String) : Except SyntaxError Signature :=
  let source := text.toList
  match readSignature (tokens source) with
  | .ok (signature, []) => .ok signature
  | .ok (_, rest) => .error (.before source (position rest))
  | .error position => .error (.before source position)

end Signature

end SchemaAssembly
