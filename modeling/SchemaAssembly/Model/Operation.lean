/-
This file defines the operations on the objects of a data class: fields of the query and mutation
types that read or delete them. Identifiers of operations lead to classes, and classes to what
creates the field; a class may be known and create nothing.
-/

import SchemaAssembly.Field.Configuration

namespace SchemaAssembly

/-- The types on which the fields of operations live. -/
inductive Root
  | query
  | mutation
  deriving DecidableEq

namespace Root

/-- Both root types. -/
def all : List Root := [.query, .mutation]

/-- The name of a root type. -/
def name : Root → String
  | .query => "Query"
  | .mutation => "Mutation"

end Root

/-- What an operation does: it reads objects, reads one of them, or deletes some. -/
inductive Operation
  | read
  | readOne
  | delete
  deriving DecidableEq

namespace Operation

/-- All operations, in the order in which they are known at first. -/
def all : List Operation := [.read, .readOne, .delete]

/-- The identifier under which an operation is found at first. -/
def identifier : Operation → String
  | .read => "read"
  | .readOne => "readOne"
  | .delete => "delete"

/-- The class under which an operation is found at first. -/
def className : Operation → String
  | .read => "ReadCreator"
  | .readOne => "ReadOneCreator"
  | .delete => "DeleteCreator"

/-- The type on which the field of an operation lives. -/
def root : Operation → Root
  | .read | .readOne => .query
  | .delete => .mutation

/-- The name that the field of an operation has by default. -/
def defaultName (operation : Operation) (type : String) : String :=
  match operation with
  | .read => "read" ++ type ++ "s"
  | .readOne => "read" ++ type ++ "One"
  | .delete => "delete" ++ type ++ "s"

/-- The arguments of the field of an operation. -/
def arguments : Operation → String
  | .read => "(limit: Int, offset: Int)"
  | .readOne => "(id: ID!)"
  | .delete => "(ids: [ID!]!)"

/-- The type of the field of an operation. -/
def resultType (operation : Operation) (type : String) : String :=
  match operation with
  | .read => "[" ++ type ++ "!]!"
  | .readOne => type
  | .delete => "[ID]!"

/-- The keys that the configuration of an operation may have. -/
def configKeys : List String := ["name", "resolver", "description", "creator"]

/-- The configuration of the field: its type, and what is said about resolver and description. -/
def fieldConfig (operation : Operation) (type : String) (config : Json.Settings) :
    Json.Settings :=
  Keyed.ofList
    (("type", .text (operation.resultType type)) ::
      ["resolver", "description"].filterMap fun key =>
        (config.get? key).map fun value => (key, value))

/-- The name of the field: the configured one, else the default. -/
def fieldName (operation : Operation) (type : String) (config : Json.Settings) :
    Except Problem String :=
  match config.get? "name" with
  | none | some .null => .ok (operation.defaultName type)
  | some (.text name) => .ok name
  | some _ =>
    .error (.invalidConfigValue (placeOfOperation operation.identifier) "name" "expected a string")

/-- Makes the field of an operation on the objects of a type. -/
def makeField (operation : Operation) (type : String) (config : Json.Settings) (wiring : Wiring) :
    Except Failure Field :=
  match config.keys.find? fun key => !configKeys.contains key with
  | some key =>
    .error (.single (.unrecognizedConfigKey (placeOfOperation operation.identifier) key
      (keyList configKeys)))
  | none =>
    match operation.fieldName type config with
    | .error problem => .error (.single problem)
    | .ok name =>
      Field.make (name ++ operation.arguments) (.mapping (operation.fieldConfig type config)) wiring

end Operation

/-- The operations that are known: identifiers lead to classes, classes to operations. -/
structure Operations where
  identifiers : Mapping String String
  classes : Mapping String (Option Operation)

namespace Operations

/-- No operations at all. -/
def empty : Operations := ⟨∅, ∅⟩

/-- Registers a class with the operation that it creates, if it creates one. -/
def registerClass (operations : Operations) (className : String) (operation : Option Operation) :
    Operations :=
  { operations with classes := operations.classes.set className operation }

/-- Registers an identifier for a class. -/
def register (operations : Operations) (identifier className : String) : Operations :=
  { operations with identifiers := operations.identifiers.set identifier className }

/-- The operations that are known at first. -/
def standard : Operations where
  identifiers := Keyed.ofList (Operation.all.map fun operation =>
    (operation.identifier, operation.className))
  classes := Keyed.ofList (Operation.all.map fun operation => (operation.className, some operation))

/-- The operation that a class creates; a problem names the identifier that led to the class. -/
def ofClass (operations : Operations) (identifier className : String) :
    Except Problem Operation :=
  match operations.classes.get? className with
  | some (some operation) => .ok operation
  | some none =>
    .error (.unknownOperationCreator identifier
      ("class " ++ Problem.quote className ++ " is not an operation creator"))
  | none =>
    .error (.unknownOperationCreator identifier
      ("class " ++ Problem.quote className ++ " does not exist"))

/-- The operation under an identifier, which has to be registered. The configuration may name
another class in place of the registered one. -/
def find (operations : Operations) (identifier : String) (config : Json.Settings) :
    Except Problem Operation :=
  match operations.identifiers.get? identifier with
  | none =>
    .error (.unknownOperationCreator identifier "no operation is registered under this identifier")
  | some registered =>
    match config.get? "creator" with
    | none => operations.ofClass identifier registered
    | some (.text className) => operations.ofClass identifier className
    | some _ => .error (.unknownOperationCreator identifier "\"creator\" must be a class name")

end Operations

end SchemaAssembly
