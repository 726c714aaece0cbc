/-
This file defines blank text: text that holds nothing but white space in the sense of the
character property `White_Space`.
-/

namespace SchemaAssembly.Text

/-- The property `White_Space`: the ASCII blanks, the next-line and no-break characters, and the
spaces and separators of the general punctuation and ideographic blocks. -/
def isWhiteSpace (letter : Char) : Bool :=
  let code := letter.toNat
  (0x9 ≤ code && code ≤ 0xD) || code == 0x20 || code == 0x85 || code == 0xA0 || code == 0x1680 ||
    (0x2000 ≤ code && code ≤ 0x200A) || code == 0x2028 || code == 0x2029 || code == 0x202F ||
    code == 0x205F || code == 0x3000

/-- A text is blank when trimming white space from its ends leaves nothing, that is, when it
holds white space only. -/
def isBlank (text : String) : Bool :=
  text.toList.all isWhiteSpace

end SchemaAssembly.Text
