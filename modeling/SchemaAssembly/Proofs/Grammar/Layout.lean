/-
This file says how a list of tokens may be laid out as a source, without reference to how a source
is split. Each token is spelled in its own way; between the tokens, before the first and after the
last stands ignored text, which may be empty except where a word would run on into what follows.
-/

import SchemaAssembly.Grammar.Token

namespace SchemaAssembly.Grammar

/-! ### Ignored text -/

/-- Ignored text in front of `after`: blanks, commas, and comments, which run up to the end of
their line or of the source. -/
inductive IsIgnored (after : List Char) : List Char → Prop
  | nil : IsIgnored after []
  | blank {letter : Char} {rest : List Char} (ignorable : isIgnorable letter = true)
      (ignored : IsIgnored after rest) : IsIgnored after (letter :: rest)
  | comment {body rest : List Char} (inLine : ∀ letter ∈ body, isLineEnd letter = false)
      (ends : ∀ letter ∈ (rest ++ after).head?, isLineEnd letter = true)
      (ignored : IsIgnored after rest) : IsIgnored after ('#' :: (body ++ rest))

/-! ### Spellings -/

/-- The character of a mark. -/
def Mark.letter : Mark → Char
  | .openParenthesis => '('
  | .closeParenthesis => ')'
  | .openBracket => '['
  | .closeBracket => ']'
  | .openBrace => '{'
  | .closeBrace => '}'
  | .colon => ':'
  | .equals => '='
  | .exclamation => '!'

/-- One digit or more. -/
def IsDigits (text : List Char) : Prop :=
  text ≠ [] ∧ ∀ letter ∈ text, letter.isDigit = true

theorem isDigits_iff {text : List Char} :
    IsDigits text ↔ text.isEmpty = false ∧ text.all Char.isDigit = true := by
  rw [IsDigits, List.all_eq_true, List.isEmpty_eq_false_iff]

/-- Digits, perhaps after a minus sign. -/
def IsWhole (text : List Char) : Prop :=
  ∃ sign digits, text = sign ++ digits ∧ (sign = [] ∨ sign = ['-']) ∧ IsDigits digits

/-- A point and digits. -/
def IsFraction (text : List Char) : Prop :=
  ∃ digits, text = '.' :: digits ∧ IsDigits digits

/-- The letter of an exponent and digits, perhaps with a sign between them. -/
def IsExponent (text : List Char) : Prop :=
  ∃ mark sign digits, text = mark :: (sign ++ digits) ∧ (mark = 'e' ∨ mark = 'E') ∧
    (sign = [] ∨ sign = ['-'] ∨ sign = ['+']) ∧ IsDigits digits

/-- A whole number with a fraction, an exponent or both. -/
def IsFloat (text : List Char) : Prop :=
  ∃ whole point power, text = whole ++ (point ++ power) ∧ IsWhole whole ∧
    (point = [] ∨ IsFraction point) ∧ (power = [] ∨ IsExponent power) ∧
    ¬(point = [] ∧ power = [])

/-- A literal between quotes that is read as the given content and used up by it. -/
def IsTextLiteral (content text : List Char) : Prop :=
  ∃ body, text = '"' :: body ∧ textBody body = .ok (content, [])

/-- A text spells a token. A number is its own text; a text may be spelled in many ways. What
could not be read has no spelling. -/
def Spells : Token → List Char → Prop
  | .mark mark, text => text = [mark.letter]
  | .name name, text => text = name.letters
  | .int digits, text => text = digits.toList ∧ IsWhole text
  | .float digits, text => text = digits.toList ∧ IsFloat text
  | .text content, text => IsTextLiteral content.toList text
  | .brokenText _, _ => False
  | .stray, _ => False

/-- Names and numbers, which go on as long as letters, digits and underscores follow. -/
def Token.IsWord : Token → Prop
  | .name _ => True
  | .int _ => True
  | .float _ => True
  | _ => False

/-- A text starts with a letter, a digit or an underscore. -/
def StartsWord (text : List Char) : Prop :=
  ∃ letter rest, text = letter :: rest ∧ isNamePart letter = true

/-! ### Layouts -/

/-- A source consists of the spellings of some tokens, with ignored text before each of them and
after the last. No letter, digit or underscore stands directly behind a word, so the ignored text
between a word and a token that starts with one is not empty. -/
inductive Laid : List Token → List Char → Prop
  | nil {gap : List Char} (ignored : IsIgnored [] gap) : Laid [] gap
  | cons {token : Token} {tokens : List Token} {gap text rest : List Char}
      (ignored : IsIgnored (text ++ rest) gap) (spelled : Spells token text)
      (apart : token.IsWord → ¬StartsWord rest) (laid : Laid tokens rest) :
      Laid (token :: tokens) (gap ++ (text ++ rest))

/-! ### Where ignored text ends -/

/-- A source that is at its end or goes on with something that is not ignored. -/
def StartsUnignored (source : List Char) : Prop :=
  ∀ letter ∈ source.head?, isIgnorable letter = false ∧ letter ≠ '#'

theorem isIgnorable_of_isLineEnd {letter : Char} (lineEnd : isLineEnd letter = true) :
    isIgnorable letter = true := by
  unfold isLineEnd at lineEnd
  rw [Bool.or_eq_true, beq_iff_eq, beq_iff_eq] at lineEnd
  rcases lineEnd with rfl | rfl <;> rfl

theorem skipIgnored_blank {letter : Char} (ignorable : isIgnorable letter = true)
    (rest : List Char) : skipIgnored false (letter :: rest) = skipIgnored false rest := by
  rw [skipIgnored, if_neg Bool.false_ne_true, if_pos ignorable]

theorem skipIgnored_comment (rest : List Char) :
    skipIgnored false ('#' :: rest) = skipIgnored true rest := rfl

/-- Within a comment everything is skipped up to the end of the line. -/
theorem skipIgnored_inLine {body : List Char} (inLine : ∀ letter ∈ body, isLineEnd letter = false)
    (rest : List Char) : skipIgnored true (body ++ rest) = skipIgnored true rest := by
  induction body with
  | nil => rfl
  | cons letter others inductionHypothesis =>
    rw [List.cons_append, skipIgnored, if_pos rfl, inLine letter List.mem_cons_self, Bool.not_false]
    exact inductionHypothesis fun other member => inLine other (List.mem_cons_of_mem _ member)

/-- At the end of its line, or of the source, a comment is over. -/
theorem skipIgnored_lineEnd {rest : List Char}
    (ends : ∀ letter ∈ rest.head?, isLineEnd letter = true) :
    skipIgnored true rest = skipIgnored false rest := by
  cases rest with
  | nil => rfl
  | cons letter others =>
    have lineEnd : isLineEnd letter = true := ends letter rfl
    rw [skipIgnored, if_pos rfl, lineEnd, Bool.not_true,
      skipIgnored_blank (isIgnorable_of_isLineEnd lineEnd)]

theorem skipIgnored_of_startsUnignored {source : List Char} (starts : StartsUnignored source) :
    skipIgnored false source = source := by
  cases source with
  | nil => rfl
  | cons letter rest =>
    obtain ⟨notBlank, notComment⟩ := starts letter rfl
    rw [skipIgnored, if_neg Bool.false_ne_true, if_neg (by rw [notBlank]; exact Bool.false_ne_true),
      if_neg (by rw [beq_iff_eq]; exact notComment)]

/-- Ignored text is skipped as a whole. -/
theorem skipIgnored_append {gap source : List Char} (ignored : IsIgnored source gap)
    (starts : StartsUnignored source) : skipIgnored false (gap ++ source) = source := by
  induction ignored with
  | nil => exact skipIgnored_of_startsUnignored starts
  | blank ignorable ignored inductionHypothesis =>
    rw [List.cons_append, skipIgnored_blank ignorable, inductionHypothesis]
  | comment inLine ends ignored inductionHypothesis =>
    rw [List.cons_append, skipIgnored_comment, List.append_assoc, skipIgnored_inLine inLine,
      skipIgnored_lineEnd ends, inductionHypothesis]

/-- What is skipped is ignored text. Within a comment the text starts with the rest of the
comment. -/
theorem exists_isIgnored_skipIgnored (inComment : Bool) (source : List Char) :
    ∃ body gap, source = body ++ (gap ++ skipIgnored inComment source) ∧
      IsIgnored (skipIgnored inComment source) gap ∧ (inComment = false → body = []) ∧
      (∀ letter ∈ body, isLineEnd letter = false) ∧
      (inComment = true →
        ∀ letter ∈ (gap ++ skipIgnored inComment source).head?, isLineEnd letter = true) := by
  induction source generalizing inComment with
  | nil => exact ⟨[], [], rfl, .nil, fun _ => rfl, by simp, by simp [skipIgnored]⟩
  | cons letter rest inductionHypothesis =>
    cases inComment with
    | true =>
      rw [skipIgnored, if_pos rfl]
      cases lineEnd : isLineEnd letter with
      | true =>
        obtain ⟨body, gap, split, ignored, noBody, -, -⟩ := inductionHypothesis false
        rw [noBody rfl, List.nil_append] at split
        rw [Bool.not_true]
        refine ⟨[], letter :: gap, congrArg (letter :: ·) split,
          .blank (isIgnorable_of_isLineEnd lineEnd) ignored, fun _ => rfl, by simp, ?_⟩
        simp [lineEnd]
      | false =>
        obtain ⟨body, gap, split, ignored, -, inLine, ends⟩ := inductionHypothesis true
        rw [Bool.not_false]
        refine ⟨letter :: body, gap, congrArg (letter :: ·) split, ignored, by simp, ?_, ends⟩
        intro other member
        rcases List.mem_cons.mp member with rfl | inBody
        · exact lineEnd
        · exact inLine other inBody
    | false =>
      rw [skipIgnored, if_neg Bool.false_ne_true]
      split
      · next ignorable =>
        obtain ⟨body, gap, split, ignored, noBody, -, -⟩ := inductionHypothesis false
        rw [noBody rfl, List.nil_append] at split
        exact ⟨[], letter :: gap, congrArg (letter :: ·) split, .blank ignorable ignored,
          fun _ => rfl, by simp, by simp⟩
      · split
        · next isComment =>
          rw [beq_iff_eq] at isComment
          obtain ⟨body, gap, split, ignored, -, inLine, ends⟩ := inductionHypothesis true
          refine ⟨[], '#' :: (body ++ gap), ?_, .comment inLine (ends rfl) ignored,
            fun _ => rfl, by simp, by simp⟩
          rw [isComment, List.nil_append, List.cons_append, List.append_assoc, ← split]
        · exact ⟨[], [], rfl, .nil, fun _ => rfl, by simp, by simp⟩

end SchemaAssembly.Grammar
