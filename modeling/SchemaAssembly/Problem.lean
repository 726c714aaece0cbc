/-
This file defines what can go wrong while a schema is assembled: single problems with their codes
and messages, and failures, which report one problem or more. Several problems are reported as a
list in which a message keeps its line breaks but stays indented, so no message can be taken for
the start of another.
-/

namespace SchemaAssembly

/-- The kinds of problems. -/
inductive ProblemCode
  | malformedDefinition
  | unrecognizedConfigKey
  | invalidConfigValue
  | invalidResolverShape
  | missingType
  | invalidTypeSyntax
  | unresolvableCallable
  | noResolverFound
  | notADataObject
  | unknownOperationCreator
  deriving DecidableEq

namespace ProblemCode

/-- All kinds, in the order in which they are listed. -/
def all : List ProblemCode :=
  [.malformedDefinition, .unrecognizedConfigKey, .invalidConfigValue, .invalidResolverShape,
    .missingType, .invalidTypeSyntax, .unresolvableCallable, .noResolverFound, .notADataObject,
    .unknownOperationCreator]

/-- The stable name of a kind. -/
def name : ProblemCode → String
  | .malformedDefinition => "MALFORMED_DEFINITION"
  | .unrecognizedConfigKey => "UNRECOGNIZED_CONFIG_KEY"
  | .invalidConfigValue => "INVALID_CONFIG_VALUE"
  | .invalidResolverShape => "INVALID_RESOLVER_SHAPE"
  | .missingType => "MISSING_TYPE"
  | .invalidTypeSyntax => "INVALID_TYPE_SYNTAX"
  | .unresolvableCallable => "UNRESOLVABLE_CALLABLE"
  | .noResolverFound => "NO_RESOLVER_FOUND"
  | .notADataObject => "NOT_A_DATA_OBJECT"
  | .unknownOperationCreator => "UNKNOWN_OPERATION_CREATOR"

/-- The kind with a given name. -/
def ofName? (name : String) : Option ProblemCode :=
  all.find? fun code => code.name = name

end ProblemCode

/-- A single problem, with the texts that its message quotes. -/
inductive Problem
  | malformedDefinition (definition reason : String)
  | unrecognizedConfigKey (place key expected : String)
  | invalidConfigValue (place key reason : String)
  | invalidResolverShape (field key reason : String)
  | missingType (place : String) (reason : Option String)
  | invalidTypeSyntax (place type reason : String)
  | unresolvableCallable (callable reason : String)
  | noResolverFound (type field : String)
  | notADataObject (dataClass : String)
  | unknownOperationCreator (identifier reason : String)
  deriving DecidableEq

namespace Problem

/-- The kind of a problem. -/
def code : Problem → ProblemCode
  | .malformedDefinition .. => .malformedDefinition
  | .unrecognizedConfigKey .. => .unrecognizedConfigKey
  | .invalidConfigValue .. => .invalidConfigValue
  | .invalidResolverShape .. => .invalidResolverShape
  | .missingType .. => .missingType
  | .invalidTypeSyntax .. => .invalidTypeSyntax
  | .unresolvableCallable .. => .unresolvableCallable
  | .noResolverFound .. => .noResolverFound
  | .notADataObject .. => .notADataObject
  | .unknownOperationCreator .. => .unknownOperationCreator

/-- A text between quotation marks, as it is. -/
def quote (text : String) : String :=
  "\"" ++ text ++ "\""

/-- The message of a problem. -/
def message : Problem → String
  | .malformedDefinition definition reason =>
    "Malformed field definition " ++ quote definition ++ ": " ++ reason
  | .unrecognizedConfigKey place key expected =>
    "Unrecognized config key " ++ quote key ++ " for " ++ place ++ " (expected one of: " ++
      expected ++ ")"
  | .invalidConfigValue place key reason =>
    "Invalid value for config key " ++ quote key ++ " of " ++ place ++ ": " ++ reason
  | .invalidResolverShape field key reason =>
    "Invalid " ++ quote key ++ " for field " ++ quote field ++ ": " ++ reason
  | .missingType place none => "Missing type for " ++ place
  | .missingType place (some reason) => "Missing type for " ++ place ++ ": " ++ reason
  | .invalidTypeSyntax place type reason =>
    "Invalid type " ++ quote type ++ " for " ++ place ++ ": " ++ reason
  | .unresolvableCallable callable reason =>
    "Callable " ++ quote callable ++ " cannot be resolved: " ++ reason
  | .noResolverFound type field => "No resolver found for " ++ quote (type ++ "." ++ field)
  | .notADataObject dataClass => "Class " ++ quote dataClass ++ " is not a data object"
  | .unknownOperationCreator identifier reason =>
    "Unknown operation creator " ++ quote identifier ++ ": " ++ reason

/-! ### Reports of several problems -/

/-- A message as an item of a report: what follows a line break is indented. -/
def indented (letters : List Char) : List Char :=
  letters.flatMap fun letter =>
    if letter = '\n' then ['\n', ' ', ' ', ' ', ' '] else [letter]

/-- What stands before each item of a report. -/
def bullet : List Char := "\n\n  - ".toList

/-- The report of a list of messages. -/
def reportOf (messages : List (List Char)) : List Char :=
  "The following errors occurred:".toList ++
    messages.flatMap fun letters => bullet ++ indented letters

/-- The report of a list of problems. -/
def report (problems : List Problem) : String :=
  String.ofList (reportOf (problems.map fun problem => problem.message.toList))

end Problem

/-- A failure: the problems that were found, of which there is at least one. -/
structure Failure where
  first : Problem
  others : List Problem
  deriving DecidableEq

namespace Failure

/-- The failure of a single problem. -/
def single (problem : Problem) : Failure := ⟨problem, []⟩

/-- The problems of a failure, in the order in which they were found. -/
def problems (failure : Failure) : List Problem :=
  failure.first :: failure.others

/-- The failure with the given problems, if there are any. -/
def ofProblems? : List Problem → Option Failure
  | [] => none
  | first :: others => some ⟨first, others⟩

/-- The message of a failure: that of its problem if there is one only, else a report. -/
def message (failure : Failure) : String :=
  if failure.others.isEmpty then failure.first.message else Problem.report failure.problems

/-- The kinds of the problems. -/
def codes (failure : Failure) : List ProblemCode :=
  failure.problems.map Problem.code

/-- Whether some problem is of the given kind. -/
def hasCode (failure : Failure) (code : ProblemCode) : Bool :=
  failure.codes.contains code

/-- A value, unless problems have been found. -/
def settle {α : Type} (problems : List Problem) (value : α) : Except Failure α :=
  match ofProblems? problems with
  | none => .ok value
  | some failure => .error failure

end Failure

/-- The result of a step that can meet one problem, as the result of one that can meet several. -/
def Problem.alone {α : Type} : Except Problem α → Except Failure α
  | .ok value => .ok value
  | .error problem => .error (.single problem)

/-! ### Places

A place is named in the words of a message. -/

/-- The place that a field is. -/
def placeOfField (field : String) : String :=
  "field " ++ Problem.quote field

/-- The place that an argument is. -/
def placeOfArgument (argument field : String) : String :=
  "argument " ++ Problem.quote argument ++ " of field " ++ Problem.quote field

/-- The place that an object type is. -/
def placeOfType (type : String) : String :=
  "type " ++ Problem.quote type

/-- The place that an operation is. -/
def placeOfOperation (identifier : String) : String :=
  "operation " ++ Problem.quote identifier

end SchemaAssembly
