/-
This file defines the values that flow through resolver functions and the functions themselves.
The functions of an application are known here by a name of some type `κ` only; what such a name
computes, if the call ends at all, is given from outside when a function is called. The one function
that is known in full reads the field's value from its parent.
-/

import SchemaAssembly.Json.Basic
import SchemaAssembly.Number.Natural
import SchemaAssembly.Resolver.Reference

namespace SchemaAssembly

/-- A resolver function: the one that reads a field from its parent, or one of the application. -/
inductive Callable (κ : Type)
  | fieldReader
  | custom (function : κ)

/-- A value that flows through resolver functions: plain data, a mapping of such values, a record
that is asked for its properties, or a function that computes the value when it is needed. -/
inductive Source (κ : Type)
  | plain (value : Json)
  | mapping (entries : List (String × Source κ))
  | record (property : String → Option (Source κ))
  | callable (function : Callable κ)

/-- What a resolver function is called with, apart from the parent: the arguments of the field,
the context of the request, the type and the field that are resolved, and the context that was
attached to the field. -/
structure Call where
  arguments : Json.Settings
  context : Json
  parentType : String
  field : String
  resolverContext : Mapping String Json

namespace Source

variable {κ : Type}

/-- The value for nothing. -/
def null : Source κ := .plain .null

instance : Inhabited (Source κ) := ⟨null⟩

/-- Whether a value is nothing. -/
def isNull : Source κ → Bool
  | .plain .null => true
  | _ => false

/-- Whether a value is plain data. -/
def isPlain : Source κ → Bool
  | .plain _ => true
  | _ => false

/-- The position that a name is: decimal digits, perhaps after a plus sign, for a number that has
a place in 64 bits. -/
def positionOf? (name : String) : Option Nat :=
  let digits := match name.toList with
    | '+' :: rest => rest
    | letters => letters
  if digits.isEmpty || !digits.all Char.isDigit || UInt64.size ≤ Natural.ofDigits digits then none
  else some (Natural.ofDigits digits)

/-- The part of a value with a given name: the member of an object, the item at a position, the
entry of a mapping, the property of a record. -/
def part? (source : Source κ) (name : String) : Option (Source κ) :=
  match source with
  | .plain (.object members) => ((Keyed.ofList members : Json.Settings).get? name).map .plain
  | .plain (.array items) => ((positionOf? name).bind (items[·]?)).map .plain
  | .plain _ => none
  | .mapping entries => (Keyed.ofList entries : Mapping String (Source κ)).get? name
  | .record property => property name
  | .callable _ => none

/-- Reads the field that is resolved from its parent. A part that is a function of the application
is called with the same parent, and its result is the value. A part that is the function that reads
fields would be called in the same way, and so come upon itself again and again: there is no result
then. -/
def read (run : κ → Source κ → Call → Option (Source κ)) (source : Source κ) (call : Call) :
    Option (Source κ) :=
  match source.part? call.field with
  | some (.callable (.custom function)) => run function source call
  | some (.callable .fieldReader) => none
  | some value => some value
  | none => some null

end Source

/-- Calls a function. There is no result of a call that never ends. -/
def Callable.call {κ : Type} (run : κ → Source κ → Call → Option (Source κ)) :
    Callable κ → Source κ → Call → Option (Source κ)
  | .fieldReader => Source.read run
  | .custom function => run function

/-- The functions to which fields may be bound, by their names. -/
abbrev Callables (κ : Type) := Mapping Target (Callable κ)

namespace Callables

variable {κ : Type}

/-- The functions to start with: the one that reads fields, under the standard name. -/
def standard : Callables κ :=
  (∅ : Callables κ).set Target.standard .fieldReader

/-- The names of the functions. -/
def known (callables : Callables κ) : KnownTargets :=
  callables.keys

end Callables

end SchemaAssembly
