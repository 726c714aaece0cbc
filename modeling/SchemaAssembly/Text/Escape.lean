/-
This file defines the escapes that string literals share: one-letter escapes, and characters
given by hexadecimal digits.
-/

namespace SchemaAssembly.Text

/-- The character that a backslash and this character stand for. -/
def escape? : Char → Option Char
  | '"' => some '"'
  | '\\' => some '\\'
  | '/' => some '/'
  | 'b' => some '\x08'
  | 'f' => some '\x0c'
  | 'n' => some '\n'
  | 'r' => some '\r'
  | 't' => some '\t'
  | _ => none

/-- The value of a hexadecimal digit. -/
def hexDigit? (letter : Char) : Option Nat :=
  if '0' ≤ letter && letter ≤ '9' then some (letter.toNat - '0'.toNat)
  else if 'a' ≤ letter && letter ≤ 'f' then some (letter.toNat - 'a'.toNat + 10)
  else if 'A' ≤ letter && letter ≤ 'F' then some (letter.toNat - 'A'.toNat + 10)
  else none

/-- The value of a sequence of hexadecimal digits. -/
def hexValue? (letters : List Char) : Option Nat :=
  letters.foldlM (fun value letter => (hexDigit? letter).map (16 * value + ·)) 0

/-- The first code of the halves of surrogate pairs that come first. -/
def firstHighSurrogate : Nat := 0xD800

/-- The first code of the halves of surrogate pairs that come second. -/
def firstLowSurrogate : Nat := 0xDC00

/-- The first code after the surrogates. -/
def afterSurrogates : Nat := 0xE000

/-- Whether a code of sixteen bits is half of a surrogate pair. -/
def isSurrogate (code : Nat) : Bool :=
  firstHighSurrogate ≤ code && code < afterSurrogates

end SchemaAssembly.Text
