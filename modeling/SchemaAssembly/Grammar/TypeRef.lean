/-
This file reads references to types from tokens. An opening bracket commits to a list, so that a
mistake inside it is reported where it stands and not at the bracket.
-/

import SchemaAssembly.TypeRef
import SchemaAssembly.Grammar.Token
import SchemaAssembly.Grammar.SyntaxError

namespace SchemaAssembly.Grammar

/-- What comes of reading something at the start of some tokens: it is there; it is missing, which
leaves room for something else; or it is begun and goes wrong. The latter two tell the position. -/
inductive Reading (α : Type)
  | read (value : α) (rest : List Placed)
  | missing (position : List Char)
  | broken (position : List Char)

/-- A reference followed by an exclamation point, if there is one, is required. -/
def withMark (type : Bool → TypeRef) : List Placed → Reading TypeRef
  | ⟨.mark .exclamation, _⟩ :: rest => .read (type true) rest
  | rest => .read (type false) rest

/-- Reads a reference to a type. -/
def readType : List Placed → Reading TypeRef
  | ⟨.name name, _⟩ :: rest => withMark (.named name) rest
  | ⟨.mark .openBracket, _⟩ :: rest =>
    match readType rest with
    | .read item (⟨.mark .closeBracket, _⟩ :: after) => withMark (.list item) after
    | .read _ after => .broken (position after)
    | .missing position => .broken position
    | .broken position => .broken position
  | tokens => .missing (position tokens)

theorem withMark_le {type : Bool → TypeRef} {tokens rest : List Placed} {value : TypeRef}
    (read : withMark type tokens = .read value rest) : rest.length ≤ tokens.length := by
  unfold withMark at read
  split at read <;>
  · cases read
    simp

theorem readType_shorter {tokens rest : List Placed} {type : TypeRef}
    (read : readType tokens = .read type rest) : rest.length < tokens.length := by
  induction tokens generalizing type rest with
  | nil => simp [readType] at read
  | cons head others inductionHypothesis =>
    unfold readType at read
    split at read
    · next same =>
      cases same
      exact Nat.lt_succ_of_le (withMark_le read)
    · next same =>
      cases same
      split at read
      · next inner =>
        have item := inductionHypothesis inner
        have mark := withMark_le read
        simp only [List.length_cons] at item ⊢
        omega
      all_goals simp at read
    · simp at read

end SchemaAssembly.Grammar

namespace SchemaAssembly.TypeRef

open Grammar

/-- Reads a text that holds one reference to a type and ignored text. -/
def parse (text : String) : Except SyntaxError TypeRef :=
  let source := text.toList
  match readType (tokens source) with
  | .read type [] => .ok type
  | .read _ rest => .error (.before source (position rest))
  | .missing position => .error (.before source position)
  | .broken position => .error (.before source position)

end SchemaAssembly.TypeRef
