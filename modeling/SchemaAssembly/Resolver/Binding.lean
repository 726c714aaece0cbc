/-
This file defines bindings: the reference to the function that resolves a field, with the context
that is handed to the function on every call.
-/

import SchemaAssembly.Resolver.Source

namespace SchemaAssembly

/-- A resolver function bound to a field. -/
structure Binding where
  reference : Reference
  context : Mapping String Json

namespace Binding

/-- The binding of a function to which no context is attached. -/
def ofReference (reference : Reference) : Binding := ⟨reference, ∅⟩

/-- Attaches a value under a key. -/
def addContext (binding : Binding) (key : String) (value : Json) : Binding :=
  { binding with context := binding.context.set key value }

/-- The text of a binding: that of its reference. -/
def text (binding : Binding) : String :=
  binding.reference.text

/-- Calls the bound function, as it is found among the given functions, for a field of a parent.
There is no result where the call never ends. -/
def invoke {κ : Type} (run : κ → Source κ → Call → Option (Source κ)) (callables : Callables κ)
    (binding : Binding) (parent : Source κ) (arguments : Json.Settings) (context : Json)
    (parentType field : String) : Option (Except Problem (Source κ)) :=
  match callables.get? binding.reference.target with
  | some function =>
    (function.call run parent ⟨arguments, context, parentType, field, binding.context⟩).map .ok
  | none =>
    some (.error (.unresolvableCallable binding.text
      "not present in the callable registry used for execution"))

end Binding

end SchemaAssembly
