/-
This file defines the wiring of a schema: which resolver function computes which field of which
type. A question is put to five tiers in turn, and the first that knows an answer gives it.
-/

import SchemaAssembly.Resolver.Reference
import SchemaAssembly.Text.Case

namespace SchemaAssembly

/-- The tiers of a wiring: a resolver for exactly the field of the type; a method of a resolver
class with a conventional name; the default of the field; the default of the type; the default of
everything. -/
inductive Tier
  | explicit
  | convention
  | fieldDefault
  | typeDefault
  | globalDefault
  deriving DecidableEq

namespace Tier

/-- The tiers, in the order in which they are asked. -/
def all : List Tier :=
  [.explicit, .convention, .fieldDefault, .typeDefault, .globalDefault]

/-- The name of a tier. -/
def name : Tier → String
  | .explicit => "explicit"
  | .convention => "convention"
  | .fieldDefault => "field default"
  | .typeDefault => "type default"
  | .globalDefault => "global default"

end Tier

/-- What is known about who resolves what, with the functions that are known at all. -/
structure Wiring where
  known : KnownTargets
  fieldResolvers : Mapping (String × String) Reference
  typeDefaults : Mapping String Reference
  resolverClasses : List String
  globalDefault : Option Reference

/-- A step in setting up a wiring. The resolver of a field is given by a reference or by the text
of one. -/
inductive Registration
  | fieldResolver (type field : String) (reference : Reference)
  | callable (type field text : String)
  | typeDefault (type : String) (reference : Reference)
  | resolverClass (className : String)
  | globalDefault (reference : Option Reference)

namespace Wiring

/-- The wiring to start with: everything is resolved by the standard function, if it is known. -/
def start (known : KnownTargets) : Wiring where
  known := known
  fieldResolvers := ∅
  typeDefaults := ∅
  resolverClasses := []
  globalDefault := (Reference.check known Target.standard).toOption

/-- The wiring with the given resolver for exactly the field of the type. -/
def setFieldResolver (wiring : Wiring) (type field : String) (reference : Reference) : Wiring :=
  { wiring with fieldResolvers := wiring.fieldResolvers.set (type, field) reference }

/-- Reads a reference and makes it the resolver of exactly the field of the type. Where it cannot
be read, the wiring is as it was. -/
def registerCallable (wiring : Wiring) (type field text : String) : Wiring × Option Problem :=
  match Reference.parse wiring.known text with
  | .ok reference => (wiring.setFieldResolver type field reference, none)
  | .error problem => (wiring, some problem)

/-- Takes a step. What is registered later replaces what was registered for the same; a resolver
class keeps the place at which it was registered first. -/
def register (wiring : Wiring) : Registration → Wiring
  | .fieldResolver type field reference => wiring.setFieldResolver type field reference
  | .callable type field text => (wiring.registerCallable type field text).1
  | .typeDefault type reference =>
    { wiring with typeDefaults := wiring.typeDefaults.set type reference }
  | .resolverClass className =>
    if wiring.resolverClasses.contains className then wiring
    else { wiring with resolverClasses := wiring.resolverClasses ++ [className] }
  | .globalDefault reference => { wiring with globalDefault := reference }

/-- The wiring that some steps lead to. -/
def ofHistory (known : KnownTargets) (history : List Registration) : Wiring :=
  history.foldl register (start known)

/-! ### Conventional names -/

/-- The conventional name of the method for something: `resolve` and the parts of its name, each
with its first letter raised. -/
def conventionalName (parts : List String) : String :=
  parts.foldl (fun name part => name ++ Text.capitalized part) "resolve"

/-- The first of some methods that is known on the first resolver class that has any of them. -/
def onResolverClasses (wiring : Wiring) (methods : List String) : Option Reference :=
  wiring.resolverClasses.findSome? fun className =>
    methods.findSome? fun methodName =>
      (Reference.check wiring.known ⟨className, methodName⟩).toOption

/-! ### Questions -/

/-- What one tier answers for a field of a type with the given default of its own. -/
def atTier (wiring : Wiring) (type field : String) (fieldDefault : Option Reference) :
    Tier → Option Reference
  | .explicit => wiring.fieldResolvers.get? (type, field)
  | .convention =>
    wiring.onResolverClasses [conventionalName [type, field], conventionalName [field]]
  | .fieldDefault => fieldDefault
  | .typeDefault =>
    match wiring.typeDefaults.get? type with
    | some reference => some reference
    | none => wiring.onResolverClasses [conventionalName [type]]
  | .globalDefault => wiring.globalDefault

/-- The first answer of the tiers, with the tier that gave it. -/
def findWithTier (wiring : Wiring) (type field : String) (fieldDefault : Option Reference) :
    Except Problem (Tier × Reference) :=
  let answer := Tier.all.findSome? fun tier =>
    (wiring.atTier type field fieldDefault tier).map fun reference => (tier, reference)
  match answer with
  | some found => .ok found
  | none => .error (.noResolverFound type field)

/-- The resolver of a field of a type. -/
def find (wiring : Wiring) (type field : String) (fieldDefault : Option Reference) :
    Except Problem Reference :=
  (wiring.findWithTier type field fieldDefault).map Prod.snd

end Wiring

end SchemaAssembly
