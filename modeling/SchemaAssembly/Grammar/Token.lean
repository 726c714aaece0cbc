/-
This file splits the compact syntax of GraphQL definitions into tokens. Between tokens stand
blanks, commas and comments, which mean nothing. Splitting never fails: where no token can be read
it leaves a stray token, or a text token that breaks off, and stops; whoever meets such a token
decides what to report.
-/

import SchemaAssembly.Name
import SchemaAssembly.Number.Natural
import SchemaAssembly.Text.Escape

namespace SchemaAssembly.Grammar

/-- The punctuation of the syntax. -/
inductive Mark
  | openParenthesis
  | closeParenthesis
  | openBracket
  | closeBracket
  | openBrace
  | closeBrace
  | colon
  | equals
  | exclamation
  deriving DecidableEq

/-- A token. A number keeps its text and a text its meaning; `brokenText` holds the source from
the place on at which a text literal goes wrong. -/
inductive Token
  | mark (mark : Mark)
  | name (name : Name)
  | int (digits : String)
  | float (digits : String)
  | text (content : String)
  | brokenText (failure : List Char)
  | stray
  deriving DecidableEq

/-- A token together with the source from the token on, which is its position. -/
structure Placed where
  token : Token
  source : List Char

/-- The position of the first of some tokens: the end of the source when there is none. -/
def position : List Placed → List Char
  | [] => []
  | first :: _ => first.source

/-! ### Ignored text -/

/-- Characters that mean nothing between tokens. -/
def isIgnorable (letter : Char) : Bool :=
  letter == ' ' || letter == '\t' || letter == '\r' || letter == '\n' || letter == ','

/-- Characters that end a line, and with it a comment. -/
def isLineEnd (letter : Char) : Bool :=
  letter == '\n' || letter == '\r'

/-- The source after the ignored text at its start; `inComment` tells whether the start lies
within a comment. -/
def skipIgnored (inComment : Bool) : List Char → List Char
  | [] => []
  | letter :: rest =>
    if inComment then skipIgnored (!isLineEnd letter) rest
    else if isIgnorable letter then skipIgnored false rest
    else if letter == '#' then skipIgnored true rest
    else letter :: rest

/-- What follows ignored text is an end of the source. -/
theorem skipIgnored_suffix (inComment : Bool) (source : List Char) :
    skipIgnored inComment source <:+ source := by
  induction source generalizing inComment with
  | nil => exact List.suffix_refl []
  | cons letter rest inductionHypothesis =>
    unfold skipIgnored
    split
    · exact (inductionHypothesis _).trans (List.suffix_cons letter rest)
    · split
      · exact (inductionHypothesis _).trans (List.suffix_cons letter rest)
      · split
        · exact (inductionHypothesis _).trans (List.suffix_cons letter rest)
        · exact List.suffix_refl _

/-! ### Text literals -/

/-- The character that four characters after a backslash and `u` stand for: hexadecimal digits,
of which the first may be a plus sign instead, for a code that is no surrogate. -/
def codePoint? (first second third fourth : Char) : Option Char :=
  let digits := if first == '+' then [second, third, fourth] else [first, second, third, fourth]
  match Text.hexValue? digits with
  | some code => if Text.isSurrogate code then none else some (Char.ofNat code)
  | none => none

/-- Puts a character in front of a text that has been read. -/
def withLetter (letter : Char) :
    Except (List Char) (List Char × List Char) → Except (List Char) (List Char × List Char)
  | .ok (letters, after) => .ok (letter :: letters, after)
  | .error failure => .error failure

/-- The meaning of a text literal up to its closing quote, and what follows. It breaks off at the
end of the line or of the source, or at a backslash that starts no escape. -/
def textBody : List Char → Except (List Char) (List Char × List Char)
  | [] => .error []
  | '"' :: rest => .ok ([], rest)
  | '\\' :: 'u' :: first :: second :: third :: fourth :: rest =>
    match codePoint? first second third fourth with
    | some letter => withLetter letter (textBody rest)
    | none => .error ('\\' :: 'u' :: first :: second :: third :: fourth :: rest)
  | '\\' :: mark :: rest =>
    match Text.escape? mark with
    | some letter => withLetter letter (textBody rest)
    | none => .error ('\\' :: mark :: rest)
  | letter :: rest =>
    if letter == '\\' || isLineEnd letter then .error (letter :: rest)
    else withLetter letter (textBody rest)

/-! ### Numbers -/

/-- The sign at the start of a number, if there is one, and what follows. -/
def sign : List Char → List Char × List Char
  | '-' :: rest => (['-'], rest)
  | source => ([], source)

/-- A point with digits after it, if they stand at the start, and what follows. -/
def fraction : List Char → List Char × List Char
  | '.' :: rest =>
    match Natural.digits? rest with
    | some (digits, after) => ('.' :: digits, after)
    | none => ([], '.' :: rest)
  | source => ([], source)

/-- The sign of an exponent, if there is one, and what follows. -/
def exponentSign : List Char → List Char × List Char
  | '-' :: rest => (['-'], rest)
  | '+' :: rest => (['+'], rest)
  | source => ([], source)

/-- An exponent, if one stands at the start, and what follows. -/
def exponent : List Char → List Char × List Char
  | [] => ([], [])
  | mark :: rest =>
    if mark == 'e' || mark == 'E' then
      match Natural.digits? (exponentSign rest).2 with
      | some (digits, after) => (mark :: ((exponentSign rest).1 ++ digits), after)
      | none => ([], mark :: rest)
    else ([], mark :: rest)

/-- Characters that may not follow a number directly. -/
def spoilsNumber (letter : Char) : Bool :=
  letter == '.' || isNameStart letter

/-- The number at the start of a source, and what follows. -/
def number? (source : List Char) : Option (Token × List Char) :=
  match Natural.digits? (sign source).2 with
  | none => none
  | some (whole, afterWhole) =>
    let (point, afterPoint) := fraction afterWhole
    let (power, rest) := exponent afterPoint
    let text := String.ofList ((sign source).1 ++ whole ++ point ++ power)
    if rest.head?.any spoilsNumber then none
    else if point.isEmpty && power.isEmpty then some (.int text, rest)
    else some (.float text, rest)

/-! ### Tokens -/

/-- The mark that a character is. -/
def mark? : Char → Option Mark
  | '(' => some .openParenthesis
  | ')' => some .closeParenthesis
  | '[' => some .openBracket
  | ']' => some .closeBracket
  | '{' => some .openBrace
  | '}' => some .closeBrace
  | ':' => some .colon
  | '=' => some .equals
  | '!' => some .exclamation
  | _ => none

/-- Whatever starts a name, with all parts of a name that follow, is one. -/
theorem isNameText_takeWhile {first : Char} (start : isNameStart first = true) (rest : List Char) :
    isNameText (first :: rest.takeWhile isNamePart) = true := by
  simp [isNameText, start, List.all_takeWhile]

/-- The token that starts with a given character, and what follows it. Nothing follows a token
that could not be read. -/
def next (first : Char) (rest : List Char) : Token × List Char :=
  match mark? first with
  | some mark => (.mark mark, rest)
  | none =>
    if start : isNameStart first = true then
      (.name ⟨first :: rest.takeWhile isNamePart, isNameText_takeWhile start rest⟩,
        rest.dropWhile isNamePart)
    else if first == '"' then
      match textBody rest with
      | .ok (letters, after) => (.text (String.ofList letters), after)
      | .error failure => (.brokenText failure, [])
    else
      match number? (first :: rest) with
      | some (token, after) => (token, after)
      | none => (.stray, [])

/-! ### Every token takes a character -/

theorem withLetter_eq_ok {letter : Char} {result : Except (List Char) (List Char × List Char)}
    {letters after : List Char} (read : withLetter letter result = .ok (letters, after)) :
    ∃ others, letters = letter :: others ∧ result = .ok (others, after) := by
  match result, read with
  | .ok (others, _), rfl => exact ⟨others, rfl, rfl⟩

/-- What follows a text literal is an end of the source. -/
theorem textBody_suffix {source letters after : List Char}
    (read : textBody source = .ok (letters, after)) : after <:+ source := by
  fun_induction textBody source generalizing letters after with
  | case1 => simp at read
  | case2 rest =>
    cases read
    exact List.suffix_cons _ _
  | case3 first second third fourth rest letter _ inductionHypothesis =>
    obtain ⟨_, _, inner⟩ := withLetter_eq_ok read
    exact (inductionHypothesis inner).trans
      (List.suffix_append ['\\', 'u', first, second, third, fourth] rest)
  | case4 => simp at read
  | case5 mark rest _ letter _ inductionHypothesis =>
    obtain ⟨_, _, inner⟩ := withLetter_eq_ok read
    exact (inductionHypothesis inner).trans (List.suffix_append ['\\', mark] rest)
  | case6 => simp at read
  | case7 => simp at read
  | case8 letter rest _ _ _ _ inductionHypothesis =>
    obtain ⟨_, _, inner⟩ := withLetter_eq_ok read
    exact (inductionHypothesis inner).trans (List.suffix_cons letter rest)

theorem sign_le (source : List Char) : (sign source).2.length ≤ source.length := by
  unfold sign
  split <;> simp

theorem exponentSign_le (source : List Char) : (exponentSign source).2.length ≤ source.length := by
  unfold exponentSign
  split <;> simp

theorem fraction_le (source : List Char) : (fraction source).2.length ≤ source.length := by
  unfold fraction
  split
  · split
    · next read =>
      have := Natural.digits?_shorter read
      simp only [List.length_cons]
      omega
    · exact Nat.le_refl _
  · exact Nat.le_refl _

theorem exponent_le (source : List Char) : (exponent source).2.length ≤ source.length := by
  unfold exponent
  split
  · exact Nat.le_refl _
  · next rest =>
    split
    · split
      · next read =>
        have := Natural.digits?_shorter read
        have := exponentSign_le rest
        simp only [List.length_cons]
        omega
      · exact Nat.le_refl _
    · exact Nat.le_refl _

/-- A number has at least one digit. -/
theorem number?_shorter {source after : List Char} {token : Token}
    (read : number? source = some (token, after)) : after.length < source.length := by
  unfold number? at read
  split at read
  · simp at read
  · next whole afterWhole readWhole =>
    have same : (exponent (fraction afterWhole).2).2 = after := by
      simp only at read
      split at read
      · simp at read
      · split at read <;>
        · cases read
          rfl
    have := Natural.digits?_shorter readWhole
    have := sign_le source
    have := fraction_le afterWhole
    have := exponent_le (fraction afterWhole).2
    rw [← same]
    omega

/-- What follows a token is no longer than what follows its first character. -/
theorem next_le (first : Char) (rest : List Char) : (next first rest).2.length ≤ rest.length := by
  unfold next
  split
  · exact Nat.le_refl _
  · split
    · exact (List.dropWhile_suffix isNamePart).length_le
    · split
      · split
        · next read => exact (textBody_suffix read).length_le
        · exact Nat.zero_le _
      · split
        · next read => exact Nat.le_of_lt_succ (number?_shorter read)
        · exact Nat.zero_le _

/-- The tokens of a source, each with its position. -/
def tokens (source : List Char) : List Placed :=
  match _start : skipIgnored false source with
  | [] => []
  | first :: rest => ⟨(next first rest).1, first :: rest⟩ :: tokens (next first rest).2
termination_by source.length
decreasing_by
  have := next_le first rest
  have suffix := (skipIgnored_suffix false source).length_le
  rw [_start, List.length_cons] at suffix
  omega

end SchemaAssembly.Grammar
