/-
This file is the command line: it reads the arguments and the catalog file, and prints what the
commands answer.
-/

import SchemaAssembly.CommandLine

namespace SchemaAssembly.CommandLine

/-- A command with its arguments. -/
inductive Command
  | field (definition config typeName : String)
  | model (catalog dataClass : String) (allFields : Bool) (operations : List String)

/-- Reads the options after the arguments of the field command. -/
def fieldOptions (definition config typeName : String) : List String → Option Command
  | [] => some (.field definition config typeName)
  | "--config" :: text :: rest => fieldOptions definition text typeName rest
  | "--type-name" :: name :: rest => fieldOptions definition config name rest
  | _ => none

/-- Reads the options after the arguments of the model command; `operations` holds those read so
far, the latest first. -/
def modelOptions (catalog dataClass : String) (allFields : Bool) (operations : List String) :
    List String → Option Command
  | [] => some (.model catalog dataClass allFields operations.reverse)
  | "--all-fields" :: rest => modelOptions catalog dataClass true operations rest
  | "--operation" :: identifier :: rest =>
    modelOptions catalog dataClass allFields (identifier :: operations) rest
  | _ => none

/-- Reads a command from the arguments of the program. -/
def Command.ofArguments? : List String → Option Command
  | "field" :: definition :: options => fieldOptions definition "null" "Query" options
  | "model" :: catalog :: dataClass :: options => modelOptions catalog dataClass false [] options
  | _ => none

/-- How the program is called. -/
def usage : String :=
  "usage: field DEFINITION [--config JSON] [--type-name NAME]\n" ++
    "       model CATALOG CLASS [--all-fields] [--operation ID]..."

/-- The content of a file, if it can be read. -/
def contentOf (path : String) : IO (Option String) := do
  try
    return some (← IO.FS.readFile path)
  catch _ =>
    return none

/-- Runs a command. -/
def Command.run : Command → IO (Except Refusal String)
  | .field definition config typeName => return buildField definition config typeName
  | .model catalog dataClass allFields operations => do
    return buildModel (← contentOf catalog) dataClass allFields operations

end SchemaAssembly.CommandLine

open SchemaAssembly.CommandLine in
/-- The program: it prints the answer of the command, or why there is none. -/
def main (arguments : List String) : IO UInt32 := do
  match Command.ofArguments? arguments with
  | none =>
    IO.eprintln usage
    return 2
  | some command =>
    match ← command.run with
    | .ok text =>
      IO.println text
      return 0
    | .error refusal =>
      IO.eprintln refusal.message
      return 1
