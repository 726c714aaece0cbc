/-
This file proves which texts are read as a constant: those that consist of its tokens with ignored
text around them, as the grammar of constants has it. It then prints constants on one line, with
texts between quotes, and proves that what is printed is read back. How much is escaped in a text
does not matter, as long as each escape is read as the character that it stands for.
-/

import SchemaAssembly.Proofs.Grammar.BareLayout
import SchemaAssembly.Proofs.Grammar.Constant
import SchemaAssembly.Sdl.Constant

namespace SchemaAssembly

open Grammar

namespace Grammar

/-! ### Numbers -/

/-- The characters by which a number is told to be a float. -/
def isFloatMark (letter : Char) : Bool :=
  letter == '.' || letter == 'e' || letter == 'E'

/-- A number of the grammar. -/
def IsNumeral (text : List Char) : Prop :=
  IsWhole text ∨ IsFloat text

theorem isFloatMark_eq_false_of_isDigit {letter : Char} (isDigit : letter.isDigit = true) :
    isFloatMark letter = false := by
  rw [Bool.eq_false_iff, isFloatMark, Ne, Bool.or_eq_true, Bool.or_eq_true, beq_iff_eq, beq_iff_eq,
    beq_iff_eq]
  rintro ((rfl | rfl) | rfl) <;> exact absurd isDigit (by decide)

theorem IsWhole.any_isFloatMark {text : List Char} (isWhole : IsWhole text) :
    text.any isFloatMark = false := by
  obtain ⟨front, digits, rfl, isSign, -, all⟩ := isWhole
  rw [List.any_append, Bool.or_eq_false_iff]
  refine ⟨?_, List.any_eq_false.mpr fun letter member => ?_⟩
  · rcases isSign with rfl | rfl <;> rfl
  · rw [isFloatMark_eq_false_of_isDigit (all letter member)]
    exact Bool.false_ne_true

theorem IsFloat.any_isFloatMark {text : List Char} (isFloat : IsFloat text) :
    text.any isFloatMark = true := by
  obtain ⟨whole, point, power, rfl, -, isPoint, isPower, notPlain⟩ := isFloat
  have marked : (point ++ power).any isFloatMark = true := by
    rcases isPoint with rfl | ⟨digits, rfl, -⟩
    · rcases isPower with rfl | ⟨mark, front, digits, rfl, rfl | rfl, -, -⟩
      · exact absurd ⟨rfl, rfl⟩ notPlain
      · rfl
      · rfl
    · rfl
  rw [List.any_append, marked, Bool.or_true]

/-- A number token holds a number of its kind. -/
def Token.HoldsNumeral : Token → Prop
  | .int digits => IsWhole digits.toList
  | .float digits => IsFloat digits.toList
  | _ => True

/-! ### Texts between quotes -/

/-- Each character is read back from its escape. -/
def ReadsBack (escape : Char → List Char) : Prop :=
  ∀ letter rest, textBody (escape letter ++ rest) = withLetter letter (textBody rest)

/-- A text between quotes. -/
def quotedBy (escape : Char → List Char) (letters : List Char) : List Char :=
  '"' :: (letters.flatMap escape ++ ['"'])

/-- A character within quotes that is escaped only where it must be: quotes, backslashes and line
breaks. -/
def escaped (letter : Char) : List Char :=
  match letter with
  | '"' => ['\\', '"']
  | '\\' => ['\\', '\\']
  | '\n' => ['\\', 'n']
  | '\r' => ['\\', 'r']
  | _ => [letter]

theorem textBody_plain {letter : Char} (notQuote : letter ≠ '"') (notBackslash : letter ≠ '\\')
    (notLineEnd : isLineEnd letter = false) (rest : List Char) :
    textBody (letter :: rest) = withLetter letter (textBody rest) := by
  have plain : ¬(letter == '\\' || isLineEnd letter) = true := by
    rw [Bool.or_eq_true, beq_iff_eq, notLineEnd]
    simpa using notBackslash
  rw [textBody, if_neg plain]
  · exact notQuote
  · exact fun _ _ _ _ _ isBackslash _ => notBackslash isBackslash
  · exact fun _ _ isBackslash _ => notBackslash isBackslash

theorem isLineEnd_eq_false {letter : Char} (notNewline : letter ≠ '\n')
    (notReturn : letter ≠ '\r') : isLineEnd letter = false := by
  rw [isLineEnd, Bool.or_eq_false_iff, beq_eq_false_iff_ne, beq_eq_false_iff_ne]
  exact ⟨notNewline, notReturn⟩

theorem textBody_escape {mark letter : Char} (decoded : Text.escape? mark = some letter)
    (rest : List Char) : textBody ('\\' :: mark :: rest) = withLetter letter (textBody rest) := by
  rw [textBody, decoded]
  rintro _ _ _ _ _ rfl
  simp [Text.escape?] at decoded

theorem readsBack_escaped : ReadsBack escaped := by
  intro letter rest
  unfold escaped
  split
  · exact textBody_escape rfl rest
  · exact textBody_escape rfl rest
  · exact textBody_escape rfl rest
  · exact textBody_escape rfl rest
  · next notQuote notBackslash notNewline notReturn =>
    exact textBody_plain notQuote notBackslash (isLineEnd_eq_false notNewline notReturn) rest

/-- The four characters after `u` in the escape of a control character. -/
theorem codePoint?_upperHexDigit {letter : Char} (isControl : letter.toNat < 0x20) :
    codePoint? '0' '0' (Sdl.upperHexDigit (letter.toNat / 16))
      (Sdl.upperHexDigit (letter.toNat % 16)) = some letter := by
  have all : ∀ code < 0x20, codePoint? '0' '0' (Sdl.upperHexDigit (code / 16))
      (Sdl.upperHexDigit (code % 16)) = some (Char.ofNat code) := by decide
  rw [all letter.toNat isControl, Char.ofNat_toNat]

theorem readsBack_quotedLetter : ReadsBack Sdl.quotedLetter := by
  intro letter rest
  unfold Sdl.quotedLetter
  split
  · exact textBody_escape rfl rest
  · exact textBody_escape rfl rest
  · exact textBody_escape rfl rest
  · exact textBody_escape rfl rest
  · exact textBody_escape rfl rest
  · exact textBody_escape rfl rest
  · exact textBody_plain (by decide) (by decide) rfl rest
  · next notNewline _ notReturn notQuote notBackslash _ =>
    split
    · next isControl =>
      simp only [List.cons_append, List.nil_append]
      rw [textBody, codePoint?_upperHexDigit isControl]
    · exact textBody_plain notQuote notBackslash (isLineEnd_eq_false notNewline notReturn) rest

/-- What is escaped so that it is read back is a literal between quotes. -/
theorem isTextLiteral_quotedBy {escape : Char → List Char} (readsBack : ReadsBack escape)
    (content : List Char) : IsTextLiteral content (quotedBy escape content) := by
  refine ⟨content.flatMap escape ++ ['"'], rfl, ?_⟩
  induction content with
  | nil => rfl
  | cons letter others inductionHypothesis =>
    rw [List.flatMap_cons, List.append_assoc, readsBack, inductionHypothesis]
    rfl

end Grammar

namespace Constant

/-! ### Printing on one line -/

mutual

/-- A constant on one line, with commas between items and members. -/
def line (escape : Char → List Char) : Constant → List Char
  | .null => Name.nullWord.letters
  | .boolean true => Name.trueWord.letters
  | .boolean false => Name.falseWord.letters
  | .enumMember name => name.letters
  | .int digits => digits.toList
  | .float digits => digits.toList
  | .text content => quotedBy escape content.toList
  | .list items => '[' :: ([',', ' '].intercalate (itemLines escape items) ++ [']'])
  | .object members =>
    '\x7b' :: ([',', ' '].intercalate (memberLines escape members) ++ ['\x7d'])

/-- The items of a list, each on one line. -/
def itemLines (escape : Char → List Char) : List Constant → List (List Char)
  | [] => []
  | head :: rest => head.line escape :: itemLines escape rest

/-- The members of an object, each on one line. -/
def memberLines (escape : Char → List Char) : List (Name × Constant) → List (List Char)
  | [] => []
  | (name, head) :: rest =>
    (name.letters ++ ':' :: ' ' :: head.line escape) :: memberLines escape rest

end

mutual

/-- The schema language writes a constant on one line, where no line may be broken. -/
theorem sdlConstant_oneLine (constant : Constant) :
    Sdl.constant .oneLine constant = constant.line Sdl.quotedLetter := by
  cases constant with
  | boolean value => cases value <;> rfl
  | list items =>
    show Sdl.bracketed .oneLine '[' ']' (Sdl.constants .oneLine items) = _
    rw [sdlConstants_oneLine items]
    rfl
  | object members =>
    show Sdl.bracketed .oneLine '\x7b' '\x7d' (Sdl.memberTexts .oneLine members) = _
    rw [sdlMemberTexts_oneLine members]
    rfl
  | _ => rfl

theorem sdlConstants_oneLine (items : List Constant) :
    Sdl.constants .oneLine items = itemLines Sdl.quotedLetter items := by
  cases items with
  | nil => rfl
  | cons head rest =>
    rw [Sdl.constants, itemLines, sdlConstant_oneLine head, sdlConstants_oneLine rest]

theorem sdlMemberTexts_oneLine (members : List (Name × Constant)) :
    Sdl.memberTexts .oneLine members = memberLines Sdl.quotedLetter members := by
  match members with
  | [] => rfl
  | (name, head) :: rest =>
    rw [Sdl.memberTexts, memberLines, sdlConstant_oneLine head, sdlMemberTexts_oneLine rest]

end

mutual

/-- What is printed holds the tokens of the constant. -/
theorem laidBare_line {escape : Char → List Char} (readsBack : ReadsBack escape)
    (constant : Constant) (numerals : ∀ token ∈ constant.tokens, token.HoldsNumeral) :
    LaidBare constant.tokens (constant.line escape) := by
  cases constant with
  | null => exact .token rfl
  | boolean value => cases value <;> exact .token rfl
  | enumMember name => exact .token rfl
  | int digits =>
    have isWhole : IsWhole digits.toList := numerals (.int digits) List.mem_cons_self
    have spelled : Spells (.int digits) digits.toList := ⟨rfl, isWhole⟩
    exact .token spelled
  | float digits =>
    have isFloat : IsFloat digits.toList := numerals (.float digits) List.mem_cons_self
    have spelled : Spells (.float digits) digits.toList := ⟨rfl, isFloat⟩
    exact .token spelled
  | text content => exact .token (isTextLiteral_quotedBy readsBack content.toList)
  | list items =>
    obtain ⟨-, inside⟩ := List.forall_mem_cons.mp numerals
    have inItems := laidBare_itemLines readsBack items (List.forall_mem_append.mp inside).1
    have closing := LaidBare.empty.mark .closeBracket
    exact (inItems.append closing (not_startsWord_cons rfl _)).mark .openBracket
  | object members =>
    obtain ⟨-, inside⟩ := List.forall_mem_cons.mp numerals
    have inMembers := laidBare_memberLines readsBack members (List.forall_mem_append.mp inside).1
    have closing := LaidBare.empty.mark .closeBrace
    exact (inMembers.append closing (not_startsWord_cons rfl _)).mark .openBrace

theorem laidBare_itemLines {escape : Char → List Char} (readsBack : ReadsBack escape)
    (items : List Constant) (numerals : ∀ token ∈ itemTokens items, token.HoldsNumeral) :
    LaidBare (itemTokens items) ([',', ' '].intercalate (itemLines escape items)) := by
  cases items with
  | nil => exact .empty
  | cons head rest =>
    obtain ⟨inHead, inRest⟩ := List.forall_mem_append.mp numerals
    have first := laidBare_line readsBack head inHead
    exact first.intercalate (laidBare_itemLines readsBack rest inRest)

theorem laidBare_memberLines {escape : Char → List Char} (readsBack : ReadsBack escape)
    (members : List (Name × Constant))
    (numerals : ∀ token ∈ memberTokens members, token.HoldsNumeral) :
    LaidBare (memberTokens members) ([',', ' '].intercalate (memberLines escape members)) := by
  match members with
  | [] => exact .empty
  | (name, head) :: rest =>
    obtain ⟨-, behindName⟩ := List.forall_mem_cons.mp numerals
    obtain ⟨-, behindColon⟩ := List.forall_mem_cons.mp behindName
    obtain ⟨inHead, inRest⟩ := List.forall_mem_append.mp behindColon
    have value := (laidBare_line readsBack head inHead).space.mark .colon
    have first := value.name name (not_startsWord_cons rfl _)
    exact first.intercalate (laidBare_memberLines readsBack rest inRest)

end

/-! ### Reading -/

theorem parse_eq_ok_iff_readConstant {constant : Constant} {source : String} :
    parse source = .ok constant ↔
      readConstant (Grammar.tokens source.toList) = .ok (constant, []) := by
  unfold parse
  dsimp only
  rcases readConstant (Grammar.tokens source.toList) with _ | ⟨found, _ | _⟩ <;> simp

/-- A constant is read where its tokens are laid out, and only there. -/
theorem parse_eq_ok_iff_laid {constant : Constant} {source : String} :
    parse source = .ok constant ↔
      constant.IsWritable ∧ Laid constant.tokens source.toList := by
  rw [parse_eq_ok_iff_readConstant, readConstant_eq_ok_iff, uses_all_iff, laid_iff,
    and_iff_left constant.isReadable_tokens]

/-- A constant of the language: no member of an enumeration in it is called like a word, and its
numbers are those of the grammar. -/
structure IsProper (constant : Constant) : Prop where
  writable : constant.IsWritable
  numerals : ∀ token ∈ constant.tokens, token.HoldsNumeral

/-- What is printed on one line is read back. -/
theorem parse_line {escape : Char → List Char} (readsBack : ReadsBack escape)
    {constant : Constant} (proper : constant.IsProper) :
    parse (String.ofList (constant.line escape)) = .ok constant := by
  rw [parse_eq_ok_iff_laid, String.toList_ofList]
  exact ⟨proper.writable, (laidBare_line readsBack constant proper.numerals).laid⟩

/-- A number is read as itself. -/
theorem parse_numeral {digits : String} (numeral : IsNumeral digits.toList) :
    parse digits =
      .ok (if digits.toList.any isFloatMark then .float digits else .int digits) := by
  rw [parse_eq_ok_iff_laid]
  rcases numeral with isWhole | isFloat
  · have spelled : Spells (.int digits) digits.toList := ⟨rfl, isWhole⟩
    rw [isWhole.any_isFloatMark, if_neg Bool.false_ne_true]
    exact ⟨trivial, (LaidBare.token spelled).laid⟩
  · have spelled : Spells (.float digits) digits.toList := ⟨rfl, isFloat⟩
    rw [isFloat.any_isFloatMark, if_pos rfl]
    exact ⟨trivial, (LaidBare.token spelled).laid⟩

/-- A text is read as a constant exactly where it consists of the tokens of the constant, with
ignored text around them. A number is a float if it has a point or an exponent, and is read as it
is written. What is printed on one line is read back, be it with the fewest escapes or with those
of the schema language. -/
theorem parse_eq_ok_iff_writable_and_laid (constant : Constant) :
    (∀ source, parse source = .ok constant ↔
      constant.IsWritable ∧ Laid constant.tokens source.toList) ∧
    (∀ digits, IsNumeral digits.toList →
      parse digits =
        .ok (if digits.toList.any isFloatMark then .float digits else .int digits)) ∧
    (constant.IsProper →
      parse (String.ofList (constant.line escaped)) = .ok constant ∧
      parse (String.ofList (Sdl.constant .oneLine constant)) = .ok constant) := by
  refine ⟨fun source => parse_eq_ok_iff_laid, fun digits => parse_numeral, fun proper => ⟨?_, ?_⟩⟩
  · exact parse_line readsBack_escaped proper
  · rw [sdlConstant_oneLine]
    exact parse_line readsBack_quotedLetter proper

/-- An object in which a member is repeated, with a list of numbers and a text that has to be
escaped. -/
theorem parse_line_of_repeated_member :
    let first : Name := ⟨"a".toList, by decide⟩
    let second : Name := ⟨"b".toList, by decide⟩
    let constant : Constant := .object
      [(first, .list [.int "12", .float "-2.5e3", .text "\"\\\n"]),
        (second, .enumMember ⟨"ASC".toList, by decide⟩), (first, .null)]
    constant.IsProper ∧
      parse (String.ofList (constant.line escaped)) = .ok constant ∧
      parse (String.ofList (Sdl.constant .oneLine constant)) = .ok constant := by
  intro first second constant
  have isWhole : IsWhole "12".toList :=
    ⟨[], "12".toList, rfl, Or.inl rfl, isDigits_iff.mpr (by decide)⟩
  have isFloat : IsFloat "-2.5e3".toList := by
    refine ⟨"-2".toList, ".5".toList, "e3".toList, rfl, ?_, Or.inr ?_, Or.inr ?_, by decide⟩
    · exact ⟨['-'], ['2'], rfl, Or.inr rfl, isDigits_iff.mpr (by decide)⟩
    · exact ⟨['5'], rfl, isDigits_iff.mpr (by decide)⟩
    · exact ⟨'e', [], ['3'], rfl, Or.inl rfl, Or.inl rfl, isDigits_iff.mpr (by decide)⟩
  have proper : constant.IsProper := by
    constructor
    · refine ⟨⟨trivial, trivial, trivial, trivial⟩, ?_, trivial, trivial⟩
      rintro (same | same | same) <;> exact absurd same (by decide)
    · simp only [constant, tokens, memberTokens, itemTokens, List.forall_mem_cons,
        List.forall_mem_append, Token.HoldsNumeral, isWhole, isFloat]
      simp
  exact ⟨proper, (parse_eq_ok_iff_writable_and_laid constant).2.2 proper⟩

end Constant

end SchemaAssembly
