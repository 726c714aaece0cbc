/-
This file reads constants from tokens. The tokens are taken one by one, with a stack of the lists
and objects that are still open, so the reading follows the tokens and needs no measure.

An opening bracket or brace commits to a list or an object. Inside a list a mistake is reported
where it stands. Inside an object a member that goes wrong before its value is begun is reported
at its name, for there the closing brace could have stood.
-/

import SchemaAssembly.Constant
import SchemaAssembly.Grammar.Token
import SchemaAssembly.Grammar.SyntaxError

namespace SchemaAssembly.Grammar

/-- A list or object that is still open, with what it holds so far, the latest first. An object
waits for the value of the member with the given name, which stands at the given position. -/
inductive Frame
  | item (before : List Constant)
  | member (before : List (Name × Constant)) (name : Name) (start : List Char)

/-- What the next token may begin: a value; an item or the end of a list; a member or the end of
an object; the value of a member, after a colon. -/
inductive Awaiting
  | value
  | item (before : List Constant)
  | member (before : List (Name × Constant))
  | colon (before : List (Name × Constant)) (name : Name) (start : List Char)

/-- What a token leads to: more tokens are needed, the constant is complete, or the token is a
mistake, reported at a position. -/
inductive Step
  | proceed (awaiting : Awaiting) (pending : List Frame)
  | finish (constant : Constant)
  | reject (position : List Char)

/-- Hands a complete constant to the innermost list or object that is open. -/
def deliver (constant : Constant) : List Frame → Step
  | [] => .finish constant
  | .item before :: outer => .proceed (.item (constant :: before)) outer
  | .member before name _ :: outer => .proceed (.member ((name, constant) :: before)) outer

/-- Where a missing value is reported: a member's value at the member's name, any other value
where it is missing. -/
def missingValue (found : List Char) : List Frame → List Char
  | .member _ _ start :: _ => start
  | _ => found

/-- A token where a value has to start. -/
def beginValue (placed : Placed) (pending : List Frame) : Step :=
  match placed.token with
  | .int digits => deliver (.int digits) pending
  | .float digits => deliver (.float digits) pending
  | .text content => deliver (.text content) pending
  | .name name => deliver (.ofName name) pending
  | .mark .openBracket => .proceed (.item []) pending
  | .mark .openBrace => .proceed (.member []) pending
  | .brokenText failure => .reject failure
  | .mark _ => .reject (missingValue placed.source pending)
  | .stray => .reject (missingValue placed.source pending)

/-- Takes one token. -/
def step (awaiting : Awaiting) (pending : List Frame) (placed : Placed) : Step :=
  match awaiting with
  | .value => beginValue placed pending
  | .item before =>
    if placed.token = .mark .closeBracket then deliver (.list before.reverse) pending
    else beginValue placed (.item before :: pending)
  | .member before =>
    match placed.token with
    | .mark .closeBrace => deliver (.object before.reverse) pending
    | .name name => .proceed (.colon before name placed.source) pending
    | _ => .reject placed.source
  | .colon before name start =>
    if placed.token = .mark .colon then .proceed .value (.member before name start :: pending)
    else .reject start

/-- Where the end of the source is reported. -/
def unfinished : Awaiting → List Frame → List Char
  | .value, pending => missingValue [] pending
  | .colon _ _ start, _ => start
  | _, _ => []

/-- Takes tokens until a constant is complete; gives it with the tokens that follow, or the
position of the mistake. -/
def readFrom (awaiting : Awaiting) (pending : List Frame) :
    List Placed → Except (List Char) (Constant × List Placed)
  | [] => .error (unfinished awaiting pending)
  | placed :: rest =>
    match step awaiting pending placed with
    | .proceed next stack => readFrom next stack rest
    | .finish constant => .ok (constant, rest)
    | .reject position => .error position

/-- Reads a constant. -/
def readConstant : List Placed → Except (List Char) (Constant × List Placed) :=
  readFrom .value []

theorem readFrom_shorter {awaiting : Awaiting} {pending : List Frame} {tokens rest : List Placed}
    {constant : Constant} (read : readFrom awaiting pending tokens = .ok (constant, rest)) :
    rest.length < tokens.length := by
  induction tokens generalizing awaiting pending with
  | nil => simp [readFrom] at read
  | cons head others inductionHypothesis =>
    unfold readFrom at read
    split at read
    · exact Nat.lt_succ_of_lt (inductionHypothesis read)
    · cases read
      simp
    · simp at read

end SchemaAssembly.Grammar

namespace SchemaAssembly.Constant

open Grammar

/-- Reads a text that holds one constant and ignored text. -/
def parse (text : String) : Except SyntaxError Constant :=
  let source := text.toList
  match readConstant (tokens source) with
  | .ok (constant, []) => .ok constant
  | .ok (_, rest) => .error (.before source (position rest))
  | .error position => .error (.before source position)

end SchemaAssembly.Constant
