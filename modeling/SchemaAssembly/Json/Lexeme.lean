/-
This file splits a JSON text into lexemes: marks, words, numbers and strings, with white space
between them skipped. Every lexeme takes at least one character, so the splitting ends.
-/

import SchemaAssembly.Json.Written

namespace SchemaAssembly.Json

/-- A lexeme of a JSON text. -/
inductive Lexeme
  | arrayStart
  | arrayEnd
  | objectStart
  | objectEnd
  | comma
  | colon
  | null
  | boolean (value : Bool)
  | number (literal : NumberLiteral)
  | text (units : List StringUnit)

namespace Lexeme

/-- The white space between lexemes. -/
def isSpace (letter : Char) : Bool :=
  letter == ' ' || letter == '\t' || letter == '\n' || letter == '\r'

/-- The units of a string up to its closing quote, and what follows. A control character has to
be written as an escape. -/
def stringBody : List Char → Option (List StringUnit × List Char)
  | [] => none
  | '"' :: rest => some ([], rest)
  | '\\' :: 'u' :: first :: second :: third :: fourth :: rest => do
    let code ← Text.hexValue? [first, second, third, fourth]
    let (units, after) ← stringBody rest
    return (.escaped code :: units, after)
  | '\\' :: mark :: rest => do
    let letter ← Text.escape? mark
    let (units, after) ← stringBody rest
    return (.plain letter :: units, after)
  | letter :: rest =>
    if letter.toNat < 0x20 || letter == '\\' then none
    else do
      let (units, after) ← stringBody rest
      return (.plain letter :: units, after)

/-- The exponent at the start of a text, if one is begun there; an exponent that is begun has to
have digits. -/
def exponent? : List Char → Option (Option Int × List Char)
  | mark :: rest =>
    if mark == 'e' || mark == 'E' then
      match rest with
      | '-' :: unsigned => (Natural.digits? unsigned).map fun (digits, after) =>
          (some (-(Natural.ofDigits digits : Int)), after)
      | '+' :: unsigned => (Natural.digits? unsigned).map fun (digits, after) =>
          (some (Natural.ofDigits digits : Int), after)
      | unsigned => (Natural.digits? unsigned).map fun (digits, after) =>
          (some (Natural.ofDigits digits : Int), after)
    else some (none, mark :: rest)
  | [] => some (none, [])

/-- The digits after a point at the start of a text, if there is a point; a point has to be
followed by a digit. -/
def fraction? : List Char → Option (Option (List Char) × List Char)
  | '.' :: rest => (Natural.digits? rest).map fun (digits, after) => (some digits, after)
  | source => some (none, source)

/-- The digits before the point: a lone zero, or digits that do not start with one. -/
def whole? : List Char → Option (List Char × List Char)
  | '0' :: rest => some (['0'], rest)
  | source => Natural.digits? source

/-- A number without sign at the start of a text. -/
def unsigned? (negative : Bool) (source : List Char) : Option (Lexeme × List Char) := do
  let (whole, afterWhole) ← whole? source
  let (fraction, afterFraction) ← fraction? afterWhole
  let (exponent, rest) ← exponent? afterFraction
  return (.number ⟨negative, whole, fraction, exponent⟩, rest)

/-- The lexeme at the start of a text that does not start with white space. -/
def next? : List Char → Option (Lexeme × List Char)
  | '[' :: rest => some (.arrayStart, rest)
  | ']' :: rest => some (.arrayEnd, rest)
  | '{' :: rest => some (.objectStart, rest)
  | '}' :: rest => some (.objectEnd, rest)
  | ',' :: rest => some (.comma, rest)
  | ':' :: rest => some (.colon, rest)
  | 'n' :: 'u' :: 'l' :: 'l' :: rest => some (.null, rest)
  | 't' :: 'r' :: 'u' :: 'e' :: rest => some (.boolean true, rest)
  | 'f' :: 'a' :: 'l' :: 's' :: 'e' :: rest => some (.boolean false, rest)
  | '"' :: rest => (stringBody rest).map fun (units, after) => (.text units, after)
  | '-' :: rest => unsigned? true rest
  | source => unsigned? false source

/-! ### Every lexeme takes a character -/

/-- A string has at least its closing quote. -/
theorem stringBody_shorter {source after : List Char} {units : List StringUnit}
    (read : stringBody source = some (units, after)) : after.length < source.length := by
  fun_induction stringBody source generalizing units after with
  | case1 => simp at read
  | case2 rest =>
    cases read
    simp
  | case3 first second third fourth rest inductionHypothesis =>
    simp only [Option.bind_eq_bind, Option.bind_eq_some_iff, Option.pure_def,
      Option.some.injEq, Prod.mk.injEq] at read
    obtain ⟨_, _, inner, readInner, _, rfl⟩ := read
    have := inductionHypothesis readInner
    simp only [List.length_cons]
    omega
  | case4 mark rest _ inductionHypothesis =>
    simp only [Option.bind_eq_bind, Option.bind_eq_some_iff, Option.pure_def,
      Option.some.injEq, Prod.mk.injEq] at read
    obtain ⟨_, _, inner, readInner, _, rfl⟩ := read
    have := inductionHypothesis readInner
    simp only [List.length_cons]
    omega
  | case5 => simp at read
  | case6 letter rest _ _ _ _ inductionHypothesis =>
    simp only [Option.bind_eq_bind, Option.bind_eq_some_iff, Option.pure_def,
      Option.some.injEq, Prod.mk.injEq] at read
    obtain ⟨inner, readInner, _, rfl⟩ := read
    have := inductionHypothesis readInner
    simp only [List.length_cons]
    omega

theorem exponent?_le {source after : List Char} {exponent : Option Int}
    (read : exponent? source = some (exponent, after)) : after.length ≤ source.length := by
  unfold exponent? at read
  split at read
  · split at read
    · split at read <;>
      · obtain ⟨⟨digits, rest⟩, readDigits, same⟩ := Option.map_eq_some_iff.mp read
        cases same
        have := Natural.digits?_shorter readDigits
        simp only [List.length_cons] at this ⊢
        omega
    · cases read
      exact Nat.le_refl _
  · cases read
    exact Nat.le_refl _

theorem fraction?_le {source after : List Char} {fraction : Option (List Char)}
    (read : fraction? source = some (fraction, after)) : after.length ≤ source.length := by
  unfold fraction? at read
  split at read
  · obtain ⟨⟨digits, rest⟩, readDigits, same⟩ := Option.map_eq_some_iff.mp read
    cases same
    have := Natural.digits?_shorter readDigits
    simp only [List.length_cons]
    omega
  · cases read
    exact Nat.le_refl _

theorem whole?_shorter {source digits after : List Char}
    (read : whole? source = some (digits, after)) : after.length < source.length := by
  unfold whole? at read
  split at read
  · cases read
    simp
  · exact Natural.digits?_shorter read

/-- A number has at least one digit. -/
theorem unsigned?_shorter {negative : Bool} {source after : List Char} {lexeme : Lexeme}
    (read : unsigned? negative source = some (lexeme, after)) : after.length < source.length := by
  simp only [unsigned?, Option.bind_eq_bind, Option.bind_eq_some_iff, Option.pure_def,
    Option.some.injEq, Prod.mk.injEq] at read
  obtain ⟨⟨_, _⟩, readWhole, ⟨_, _⟩, readFraction, ⟨_, _⟩, readExponent, _, rfl⟩ := read
  exact Nat.lt_of_le_of_lt (exponent?_le readExponent)
    (Nat.lt_of_le_of_lt (fraction?_le readFraction) (whole?_shorter readWhole))

/-- Each lexeme has at least one character, so there are no more of them than characters. -/
theorem next?_shorter {source after : List Char} {lexeme : Lexeme}
    (read : next? source = some (lexeme, after)) : after.length < source.length := by
  unfold next? at read
  split at read
  case h_10 =>
    obtain ⟨⟨units, rest⟩, readBody, same⟩ := Option.map_eq_some_iff.mp read
    cases same
    have := stringBody_shorter readBody
    simp only [List.length_cons]
    omega
  case h_11 =>
    have := unsigned?_shorter read
    simp only [List.length_cons]
    omega
  case h_12 => exact unsigned?_shorter read
  all_goals
    cases read
    simp only [List.length_cons]
    omega

/-- The lexemes of a text; there are none when some part of it is no lexeme. -/
def all? (source : List Char) : Option (List Lexeme) :=
  match _start : source.dropWhile isSpace with
  | [] => some []
  | letter :: others =>
    match _read : next? (letter :: others) with
    | none => none
    | some (lexeme, rest) => (all? rest).map (lexeme :: ·)
termination_by source.length
decreasing_by
  have shorter := next?_shorter _read
  have := (List.dropWhile_suffix (l := source) isSpace).length_le
  rw [_start] at this
  omega

end Lexeme

end SchemaAssembly.Json
