/-
This file defines how texts are written in the schema definition language of GraphQL: between
quotes with escapes, or as a block between triple quotes. A block is used only for a text that is
read back from it unchanged, for a reader strips blank lines at the ends of a block and the
indentation that its lines share.
-/

import SchemaAssembly.Text.Bytes

namespace SchemaAssembly.Sdl

/-- Where something is written: on one line that is not broken, or at an indentation level at
which lines may be broken. -/
inductive Layout
  | oneLine
  | broken (level : Nat)

/-- The layout of what stands one level deeper. -/
def Layout.deeper : Layout → Layout
  | .oneLine => .oneLine
  | .broken level => .broken (level + 1)

/-- A line break with the indentation of a level: two spaces each. -/
def lineBreak (level : Nat) : List Char :=
  '\n' :: List.replicate (2 * level) ' '

/-! ### Between quotes -/

/-- An upper-case hexadecimal digit. -/
def upperHexDigit (value : Nat) : Char :=
  if value < 10 then Char.ofNat ('0'.toNat + value) else Char.ofNat ('A'.toNat + (value - 10))

/-- A character within quotes: quotes, backslashes and control characters are escaped, except the
tab. -/
def quotedLetter (letter : Char) : List Char :=
  match letter with
  | '\x08' => ['\\', 'b']
  | '\n' => ['\\', 'n']
  | '\x0c' => ['\\', 'f']
  | '\r' => ['\\', 'r']
  | '"' => ['\\', '"']
  | '\\' => ['\\', '\\']
  | '\t' => ['\t']
  | _ =>
    if letter.toNat < 0x20 then
      ['\\', 'u', '0', '0', upperHexDigit (letter.toNat / 16), upperHexDigit (letter.toNat % 16)]
    else [letter]

/-- A text between quotes. -/
def quoted (letters : List Char) : List Char :=
  '"' :: (letters.flatMap quotedLetter ++ ['"'])

/-! ### Between triple quotes -/

/-- The lines of a text. -/
def lines (letters : List Char) : List (List Char) :=
  letters.splitOn '\n'

/-- The characters that indent a line. -/
def isIndent (letter : Char) : Bool :=
  letter == ' ' || letter == '\t'

/-- Whether a line holds nothing but indentation. -/
def isBlankLine (line : List Char) : Bool :=
  line.all isIndent

/-- Whether a text is read back unchanged from a block: it has no carriage return, its first and
its last line are not blank, and some line that is not blank is not indented. -/
def fitsBlock (letters : List Char) : Bool :=
  !letters.contains '\r' &&
    (lines letters).head?.all (fun line => !isBlankLine line) &&
    (lines letters).getLast?.all (fun line => !isBlankLine line) &&
    (lines letters).any fun line => !isBlankLine line && !line.head?.any isIndent

/-- A text within a block: triple quotes are escaped. -/
def escapedBlock : List Char → List Char
  | '"' :: '"' :: '"' :: rest => '\\' :: '"' :: '"' :: '"' :: escapedBlock rest
  | letter :: rest => letter :: escapedBlock rest
  | [] => []

/-- The longest text, in bytes, that a block holds on one line. -/
def longestLine : Nat := 70

/-- Whether a block is put on several lines: for a text of several lines, for a long one, and for
one whose last character would run into the closing quotes. -/
def needsLines (letters : List Char) : Bool :=
  letters.contains '\n' || longestLine < Text.byteCount letters ||
    letters.getLast?.any fun letter => letter == '"' || letter == '\\'

/-- The triple quotes. -/
def tripleQuotes : List Char := ['"', '"', '"']

/-- A text as a block. Empty lines are not indented. -/
def block (level : Nat) (letters : List Char) : List Char :=
  if needsLines letters then
    tripleQuotes ++
      (lines letters).flatMap (fun line =>
        (if line.isEmpty then ['\n'] else lineBreak level) ++ escapedBlock line) ++
      lineBreak level ++ tripleQuotes
  else tripleQuotes ++ escapedBlock letters ++ tripleQuotes

/-- A text that is the value of something: a block if it has several lines that may be broken
and fits. -/
def valueText (layout : Layout) (letters : List Char) : List Char :=
  match layout with
  | .oneLine => quoted letters
  | .broken level =>
    if letters.contains '\n' && fitsBlock letters then block level letters else quoted letters

/-- A text that describes something: a block if it fits. -/
def descriptionText (level : Nat) (letters : List Char) : List Char :=
  if fitsBlock letters then block level letters else quoted letters

end SchemaAssembly.Sdl
