/-
This file defines how resolver functions are named: by a class and a method. A target is such a
name as configuration gives it; a reference is a target that has been checked against the
functions that are known.
-/

import SchemaAssembly.Json.Basic
import SchemaAssembly.Problem

namespace SchemaAssembly

/-- The name of a resolver function: a class and one of its methods. -/
structure Target where
  className : String
  methodName : String
  deriving DecidableEq

namespace Target

/-- What stands between class and method in the text of a target. -/
def separator : String := "::"

/-- The text of a target, as in `Class::method`. -/
def text (target : Target) : String :=
  target.className ++ separator ++ target.methodName

/-- The function that every set of functions starts out with. -/
def standard : Target := ⟨"DefaultResolver", "defaultFieldResolver"⟩

/-- The target of a configuration value: null for none, or an array of class and method. The
error tells what is wrong with the shape of the value. -/
def ofJson : Json → Except String (Option Target)
  | .null => .ok none
  | .array [.text className, .text methodName] => .ok (some ⟨className, methodName⟩)
  | .array [_, _] => .error "both elements must be strings"
  | .array items =>
    .error ("expected exactly two elements, found " ++ Nat.repr items.length)
  | other => .error ("expected null or a [class, method] pair, found " ++ other.kind)

/-- Whether the separator occurs in a text. -/
def hasSeparator : List Char → Bool
  | ':' :: ':' :: _ => true
  | _ :: rest => hasSeparator rest
  | [] => false

/-- The parts of a text between separators, which are taken from the left and do not overlap;
`part` holds the part that has been begun, the latest character first. -/
def partsFrom (part : List Char) : List Char → List (List Char)
  | ':' :: ':' :: rest => part.reverse :: partsFrom [] rest
  | letter :: rest => partsFrom (letter :: part) rest
  | [] => [part.reverse]

/-- The parts of a text between separators. -/
def parts (text : String) : List String :=
  (partsFrom [] text.toList).map String.ofList

end Target

/-- The functions that are known, by their names. -/
abbrev KnownTargets := List Target

namespace KnownTargets

/-- Whether some function belongs to a class. -/
def hasClass (known : KnownTargets) (className : String) : Bool :=
  known.any fun target => target.className = className

end KnownTargets

/-- A target that has been checked against the functions that are known. -/
structure Reference where
  target : Target
  deriving DecidableEq

namespace Reference

/-- The text of a reference. -/
def text (reference : Reference) : String :=
  reference.target.text

/-- Checks a target: its shape, and that the function it names is known. -/
def check (known : KnownTargets) (target : Target) : Except Problem Reference :=
  if target.className.isEmpty || target.methodName.isEmpty then
    .error (.unresolvableCallable target.text "class and method must both be non-empty")
  else if Target.hasSeparator target.className.toList ||
      Target.hasSeparator target.methodName.toList then
    .error (.unresolvableCallable target.text
      ("class and method must not contain " ++ Problem.quote Target.separator))
  else if known.contains target then
    .ok ⟨target⟩
  else if known.hasClass target.className then
    .error (.unresolvableCallable target.text
      ("class " ++ Problem.quote target.className ++ " has no callable method " ++
        Problem.quote target.methodName))
  else
    .error (.unresolvableCallable target.text
      ("class " ++ Problem.quote target.className ++ " does not exist"))

/-- Reads a reference from its text, which has to consist of two parts that are not empty. -/
def parse (known : KnownTargets) (callable : String) : Except Problem Reference :=
  let malformed : Except Problem Reference :=
    .error (.unresolvableCallable callable
      ("expected the form " ++ Problem.quote ("Class" ++ Target.separator ++ "method")))
  match Target.parts callable with
  | [className, methodName] =>
    if className.isEmpty || methodName.isEmpty then malformed
    else check known ⟨className, methodName⟩
  | _ => malformed

end Reference

end SchemaAssembly
