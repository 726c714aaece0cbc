/-
This file proves which text literals are read. Between its quotes a literal consists of characters
that stand for themselves, of short escapes, and of escapes that give the code of a character in
four hexadecimal digits. All literals of the language are read as what they stand for. Whatever
else starts with a quote is refused at the first place where the literal cannot go on, with one
exception: a plus sign is taken for the first digit of a code, so that three digits are enough.
-/

import Mathlib.Algebra.Group.Nat.Defs
import Mathlib.Data.List.Forall2
import SchemaAssembly.Proofs.Grammar.ConstantText
import SchemaAssembly.Proofs.Text.Case

namespace SchemaAssembly

open Grammar

namespace Grammar

/-! ### Hexadecimal digits -/

/-- A hexadecimal digit, small or capital, and its value. -/
def IsHexDigit (letter : Char) (value : Nat) : Prop :=
  "0123456789abcdef".toList[value]? = some letter ∨
    "0123456789ABCDEF".toList[value]? = some letter

instance (letter : Char) (value : Nat) : Decidable (IsHexDigit letter value) :=
  inferInstanceAs (Decidable (_ ∨ _))

/-- Some hexadecimal digits and the character whose code they give. -/
def IsCode (digits : List Char) (letter : Char) : Prop :=
  ∃ values, List.Forall₂ IsHexDigit digits values ∧
    letter.toNat = values.foldl (fun code value => 16 * code + value) 0

theorem IsHexDigit.bounds {letter : Char} {value : Nat} (isDigit : IsHexDigit letter value) :
    letter.toNat < 128 ∧ value < 16 := by
  have allAscii : ("0123456789abcdef".toList ++ "0123456789ABCDEF".toList).all
      (fun digit => digit.toNat < 128) = true := by decide
  have ascii : ∀ digit ∈ "0123456789abcdef".toList ++ "0123456789ABCDEF".toList,
      digit.toNat < 128 :=
    fun digit isListed => of_decide_eq_true (List.all_eq_true.mp allAscii digit isListed)
  rcases isDigit with small | capital
  · obtain ⟨bound, rfl⟩ := List.getElem?_eq_some_iff.mp small
    exact ⟨ascii _ (List.mem_append_left _ (List.getElem_mem _)), bound⟩
  · obtain ⟨bound, rfl⟩ := List.getElem?_eq_some_iff.mp capital
    exact ⟨ascii _ (List.mem_append_right _ (List.getElem_mem _)), bound⟩

theorem hexDigit?_bounds {letter : Char} {value : Nat}
    (found : Text.hexDigit? letter = some value) : letter.toNat < 128 ∧ value < 16 := by
  unfold Text.hexDigit? at found
  simp only [Bool.and_eq_true, decide_eq_true_eq, Char.le_def, UInt32.le_iff_toNat_le,
    Char.toNat_val, Char.reduceToNat] at found
  split at found
  · cases found
    omega
  · split at found
    · cases found
      omega
    · split at found
      · cases found
        omega
      · cases found

theorem hexDigit?_ofNat : ∀ code < 128, ∀ value < 16,
    Text.hexDigit? (Char.ofNat code) = some value ↔ IsHexDigit (Char.ofNat code) value := by
  decide +kernel

theorem hexDigit?_eq_some_iff {letter : Char} {value : Nat} :
    Text.hexDigit? letter = some value ↔ IsHexDigit letter value := by
  have ofCode : letter.toNat < 128 → value < 16 →
      (Text.hexDigit? letter = some value ↔ IsHexDigit letter value) := by
    intro ascii small
    have same := hexDigit?_ofNat letter.toNat ascii value small
    rwa [Char.ofNat_toNat] at same
  constructor
  · intro found
    exact (ofCode (hexDigit?_bounds found).1 (hexDigit?_bounds found).2).mp found
  · intro isDigit
    exact (ofCode isDigit.bounds.1 isDigit.bounds.2).mpr isDigit

/-- The digits of a code are taken one by one, each as the next place of its value. -/
theorem foldlM_hexDigit?_eq_some_iff {digits : List Char} {start code : Nat} :
    digits.foldlM (fun value letter => (Text.hexDigit? letter).map (16 * value + ·)) start =
        some code ↔
      ∃ values, List.Forall₂ IsHexDigit digits values ∧
        code = values.foldl (fun code value => 16 * code + value) start := by
  induction digits generalizing start with
  | nil => simp [eq_comm]
  | cons first others inductionHypothesis =>
    rw [List.foldlM_cons, Option.bind_eq_bind, Option.bind_eq_some_iff]
    constructor
    · rintro ⟨next, isNext, read⟩
      obtain ⟨value, found, rfl⟩ := Option.map_eq_some_iff.mp isNext
      obtain ⟨values, areDigits, same⟩ := inductionHypothesis.mp read
      exact ⟨value :: values, .cons (hexDigit?_eq_some_iff.mp found) areDigits, same⟩
    · rintro ⟨_, areDigits, same⟩
      obtain ⟨value, values, isDigit, others, rfl⟩ := List.forall₂_cons_left_iff.mp areDigits
      refine ⟨16 * start + value, ?_, inductionHypothesis.mpr ⟨values, others, same⟩⟩
      rw [hexDigit?_eq_some_iff.mpr isDigit, Option.map_some]

theorem foldl_lt {digits : List Char} {values : List Nat}
    (areDigits : List.Forall₂ IsHexDigit digits values) (start : Nat) :
    values.foldl (fun code value => 16 * code + value) start <
      (start + 1) * 16 ^ digits.length := by
  induction areDigits generalizing start with
  | nil => simp
  | @cons first value digits values isDigit others inductionHypothesis =>
    have small := isDigit.bounds.2
    calc values.foldl (fun code value => 16 * code + value) (16 * start + value)
        < (16 * start + value + 1) * 16 ^ digits.length := inductionHypothesis _
      _ ≤ ((start + 1) * 16) * 16 ^ digits.length := Nat.mul_le_mul_right _ (by omega)
      _ = (start + 1) * 16 ^ (first :: digits).length := by
        rw [List.length_cons, Nat.pow_succ', Nat.mul_assoc]

theorem isSurrogate_eq_false_iff {code : Nat} (short : code < 16 ^ 4) :
    Text.isSurrogate code = false ↔ code.isValidChar := by
  rw [Bool.eq_false_iff, Text.isSurrogate, Ne, Bool.and_eq_true, decide_eq_true_eq,
    decide_eq_true_eq, Text.firstHighSurrogate, Text.afterSurrogates, Nat.isValidChar]
  omega

/-- Up to four digits give a character unless they give half of a surrogate pair. -/
theorem isCode_iff {digits : List Char} (few : digits.length ≤ 4) {letter : Char} :
    IsCode digits letter ↔
      ∃ code, Text.hexValue? digits = some code ∧ Text.isSurrogate code = false ∧
        Char.ofNat code = letter := by
  have short : ∀ {code}, Text.hexValue? digits = some code → code < 16 ^ 4 := by
    intro code found
    obtain ⟨values, areDigits, rfl⟩ := foldlM_hexDigit?_eq_some_iff.mp found
    exact Nat.lt_of_lt_of_le (foldl_lt areDigits 0)
      (by simpa using Nat.pow_le_pow_right (by decide) few)
  constructor
  · rintro ⟨values, areDigits, isCode⟩
    have found := foldlM_hexDigit?_eq_some_iff.mpr ⟨values, areDigits, isCode⟩
    exact ⟨letter.toNat, found, (isSurrogate_eq_false_iff (short found)).mpr letter.valid,
      Char.ofNat_toNat letter⟩
  · rintro ⟨code, found, notSurrogate, rfl⟩
    obtain ⟨values, areDigits, isCode⟩ := foldlM_hexDigit?_eq_some_iff.mp found
    refine ⟨values, areDigits, ?_⟩
    rw [← isCode]
    exact Text.toNat_ofNat_of_isValidChar ((isSurrogate_eq_false_iff (short found)).mp notSurrogate)

/-- No code starts with a plus sign. -/
theorem not_isCode_plus (digits : List Char) (letter : Char) : ¬IsCode ('+' :: digits) letter := by
  rintro ⟨_, areDigits, -⟩
  obtain ⟨value, _, isDigit, -, -⟩ := List.forall₂_cons_left_iff.mp areDigits
  have found := hexDigit?_eq_some_iff.mpr isDigit
  cases found

/-! ### Parts of a literal -/

/-- The escapes of two characters: what follows the backslash, and what the escape stands for. -/
def shortEscapes : List (Char × Char) :=
  [('"', '"'), ('\\', '\\'), ('/', '/'), ('b', '\x08'), ('f', '\x0c'), ('n', '\n'), ('r', '\r'),
    ('t', '\t')]

/-- A part of a literal: how it is written, and the character for which it stands. -/
structure LiteralPart where
  written : List Char
  letter : Char

namespace LiteralPart

/-- The parts that the language has: a character for itself, a short escape, and an escape with
the code of a character in four digits. -/
inductive IsRegular : LiteralPart → Prop
  | plain {letter : Char} (notQuote : letter ≠ '"') (notBackslash : letter ≠ '\\')
      (notLineFeed : letter ≠ '\n') (notReturn : letter ≠ '\r') : IsRegular ⟨[letter], letter⟩
  | short {mark letter : Char} (listed : (mark, letter) ∈ shortEscapes) :
      IsRegular ⟨['\\', mark], letter⟩
  | code {digits : List Char} {letter : Char} (four : digits.length = 4)
      (isCode : IsCode digits letter) : IsRegular ⟨'\\' :: 'u' :: digits, letter⟩

/-- An escape with a plus sign in front of three digits, which the language does not have. -/
inductive IsSigned : LiteralPart → Prop
  | mk {digits : List Char} {letter : Char} (three : digits.length = 3)
      (isCode : IsCode digits letter) : IsSigned ⟨'\\' :: 'u' :: '+' :: digits, letter⟩

/-- The parts that are read. -/
def IsRead (part : LiteralPart) : Prop :=
  part.IsRegular ∨ part.IsSigned

/-- The text of some parts, one after the other. -/
def text (parts : List LiteralPart) : List Char :=
  parts.flatMap written

/-- The characters for which some parts stand. -/
def content (parts : List LiteralPart) : List Char :=
  parts.map letter

end LiteralPart

open LiteralPart

/-- No part of a literal stands here. -/
def StartsNoPart (source : List Char) : Prop :=
  ∀ part : LiteralPart, part.IsRead → ¬part.written <+: source

theorem escape?_eq_some_iff {mark letter : Char} :
    Text.escape? mark = some letter ↔ (mark, letter) ∈ shortEscapes := by
  unfold Text.escape? shortEscapes
  split <;> simp_all [eq_comm]

theorem codePoint?_eq_bind (first second third fourth : Char) :
    codePoint? first second third fourth =
      (Text.hexValue?
        (if first == '+' then [second, third, fourth] else [first, second, third, fourth])).bind
        fun code => if Text.isSurrogate code then none else some (Char.ofNat code) := by
  unfold codePoint?
  dsimp only
  cases Text.hexValue? _ <;> rfl

theorem codePoint?_eq_some_iff {first second third fourth letter : Char} :
    codePoint? first second third fourth = some letter ↔
      IsCode [first, second, third, fourth] letter ∨
        first = '+' ∧ IsCode [second, third, fourth] letter := by
  have decoded : ∀ digits : List Char, digits.length ≤ 4 →
      (((Text.hexValue? digits).bind fun code =>
        if Text.isSurrogate code then none else some (Char.ofNat code)) = some letter ↔
        IsCode digits letter) := by
    intro digits few
    rw [isCode_iff few]
    cases Text.hexValue? digits with
    | none => simp
    | some code => cases Text.isSurrogate code <;> simp
  rw [codePoint?_eq_bind]
  by_cases plus : first = '+'
  · subst plus
    rw [if_pos (beq_self_eq_true '+')]
    refine (decoded [second, third, fourth] (Nat.le_succ 3)).trans ?_
    simp [not_isCode_plus]
  · rw [if_neg (by simpa using plus)]
    refine (decoded [first, second, third, fourth] (Nat.le_refl 4)).trans ?_
    simp [plus]

/-! ### Literals are read part by part -/

theorem textBody_code {first second third fourth letter : Char}
    (decoded : codePoint? first second third fourth = some letter) (rest : List Char) :
    textBody ('\\' :: 'u' :: first :: second :: third :: fourth :: rest) =
      withLetter letter (textBody rest) := by
  rw [textBody, decoded]

/-- A part is read as its character, whatever follows. -/
theorem textBody_part {part : LiteralPart} (isRead : part.IsRead) (rest : List Char) :
    textBody (part.written ++ rest) = withLetter part.letter (textBody rest) := by
  rcases isRead with isRegular | isSigned
  · cases isRegular with
    | plain notQuote notBackslash notLineFeed notReturn =>
      exact textBody_plain notQuote notBackslash (isLineEnd_eq_false notLineFeed notReturn) rest
    | short listed => exact textBody_escape (escape?_eq_some_iff.mpr listed) rest
    | @code digits letter four isCode =>
      match digits, four with
      | [first, second, third, fourth], _ =>
        exact textBody_code (codePoint?_eq_some_iff.mpr (Or.inl isCode)) rest
  · cases isSigned with
    | @mk digits letter three isCode =>
      match digits, three with
      | [second, third, fourth], _ =>
        exact textBody_code (codePoint?_eq_some_iff.mpr (Or.inr ⟨rfl, isCode⟩)) rest

/-- What a backslash and four characters after `u` write if they have a meaning. -/
theorem isRead_of_codePoint? {first second third fourth letter : Char}
    (decoded : codePoint? first second third fourth = some letter) :
    LiteralPart.IsRead ⟨['\\', 'u', first, second, third, fourth], letter⟩ := by
  rcases codePoint?_eq_some_iff.mp decoded with isCode | ⟨rfl, isCode⟩
  · exact Or.inl (.code rfl isCode)
  · exact Or.inr (.mk rfl isCode)

/-- What comes of a literal with the given content when no further part stands there: it is over
if its closing quote does. -/
def concluded (content : List Char) : List Char → Except (List Char) (List Char × List Char)
  | '"' :: after => .ok (content, after)
  | rest => .error rest

theorem concluded_of_ne_quote {rest : List Char} (noQuote : rest.head? ≠ some '"')
    (content : List Char) : concluded content rest = .error rest := by
  unfold concluded
  split
  · exact absurd rfl noQuote
  · rfl

theorem textBody_of_startsNoPart {rest : List Char} (noPart : StartsNoPart rest) :
    textBody rest = concluded [] rest := by
  unfold textBody
  split
  · rfl
  · rfl
  · next first second third fourth others =>
    split
    · next decoded =>
      exact absurd (List.prefix_append _ others) (noPart _ (isRead_of_codePoint? decoded))
    · rfl
  · next mark others _ =>
    split
    · next letter decoded =>
      have isRead : LiteralPart.IsRead ⟨['\\', mark], letter⟩ :=
        Or.inl (.short (escape?_eq_some_iff.mp decoded))
      exact absurd (List.prefix_append _ others) (noPart _ isRead)
    · rfl
  · next letter others notQuote _ _ =>
    have noQuote : (letter :: others).head? ≠ some '"' := fun same =>
      notQuote (Option.some.inj same)
    rw [concluded_of_ne_quote noQuote]
    split
    · rfl
    · next goesOn =>
      rw [Bool.or_eq_true, not_or, beq_iff_eq, isLineEnd, Bool.or_eq_true, not_or, beq_iff_eq,
        beq_iff_eq] at goesOn
      have isRead : LiteralPart.IsRead ⟨[letter], letter⟩ :=
        Or.inl (.plain notQuote goesOn.1 goesOn.2.1 goesOn.2.2)
      exact absurd (List.prefix_append _ others) (noPart _ isRead)

/-- A literal is read up to where no further part stands. -/
theorem textBody_text_append {parts : List LiteralPart} (areRead : ∀ part ∈ parts, part.IsRead)
    {rest : List Char} (noPart : StartsNoPart rest) :
    textBody (text parts ++ rest) = concluded (content parts) rest := by
  induction parts with
  | nil => exact textBody_of_startsNoPart noPart
  | cons first others inductionHypothesis =>
    obtain ⟨firstRead, othersRead⟩ := List.forall_mem_cons.mp areRead
    rw [text, List.flatMap_cons, List.append_assoc, textBody_part firstRead]
    show withLetter first.letter (textBody (text others ++ rest)) = _
    rw [inductionHypothesis othersRead]
    unfold concluded
    split <;> rfl

theorem LiteralPart.IsRead.exists_cons {part : LiteralPart} (isRead : part.IsRead) :
    ∃ first others, part.written = first :: others ∧ first ≠ '"' := by
  rcases isRead with isRegular | isSigned
  · cases isRegular with
    | plain notQuote _ _ _ => exact ⟨_, _, rfl, notQuote⟩
    | short | code => exact ⟨_, _, rfl, by decide⟩
  · cases isSigned with
    | mk => exact ⟨_, _, rfl, by decide⟩

theorem startsNoPart_quote (after : List Char) : StartsNoPart ('"' :: after) := by
  intro part isRead ⟨rest, split⟩
  obtain ⟨first, others, written, notQuote⟩ := isRead.exists_cons
  rw [written, List.cons_append] at split
  exact notQuote (List.cons.inj split).1

/-- Every source starts with the parts of a literal, as many as stand there. -/
theorem exists_parts (source : List Char) :
    ∃ parts rest, (∀ part ∈ parts, LiteralPart.IsRead part) ∧ source = text parts ++ rest ∧
      StartsNoPart rest := by
  induction length : source.length using Nat.strongRecOn generalizing source with
  | _ count inductionHypothesis =>
    by_cases noPart : StartsNoPart source
    · exact ⟨[], source, List.forall_mem_nil _, rfl, noPart⟩
    · simp only [StartsNoPart, not_forall, not_not] at noPart
      obtain ⟨first, firstRead, behind, rfl⟩ := noPart
      obtain ⟨_, _, written, -⟩ := firstRead.exists_cons
      have shorter : behind.length < count := by
        rw [← length, written, List.length_append, List.length_cons]
        omega
      obtain ⟨others, rest, othersRead, rfl, ends⟩ := inductionHypothesis _ shorter behind rfl
      refine ⟨first :: others, rest, List.forall_mem_cons.mpr ⟨firstRead, othersRead⟩, ?_, ends⟩
      rw [text, text, List.flatMap_cons, List.append_assoc]

/-! ### No source has two readings -/

/-- The escapes with a code do not meet the short ones. -/
theorem not_mem_shortEscapes (letter : Char) : ('u', letter) ∉ shortEscapes := by
  rw [← escape?_eq_some_iff]
  nofun

/-- A part is a character, a short escape, or an escape whose four characters have a meaning. -/
theorem LiteralPart.IsRead.form {part : LiteralPart} (isRead : part.IsRead) :
    (∃ letter, letter ≠ '\\' ∧ part = ⟨[letter], letter⟩) ∨
      (∃ mark letter, (mark, letter) ∈ shortEscapes ∧ part = ⟨['\\', mark], letter⟩) ∨
      ∃ first second third fourth letter,
        codePoint? first second third fourth = some letter ∧
          part = ⟨['\\', 'u', first, second, third, fourth], letter⟩ := by
  rcases isRead with isRegular | isSigned
  · cases isRegular with
    | plain _ notBackslash _ _ => exact Or.inl ⟨_, notBackslash, rfl⟩
    | short listed => exact Or.inr (Or.inl ⟨_, _, listed, rfl⟩)
    | @code digits letter four isCode =>
      match digits, four with
      | [first, second, third, fourth], _ =>
        exact Or.inr (Or.inr ⟨first, second, third, fourth, letter,
          codePoint?_eq_some_iff.mpr (Or.inl isCode), rfl⟩)
  · cases isSigned with
    | @mk digits letter three isCode =>
      match digits, three with
      | [second, third, fourth], _ =>
        exact Or.inr (Or.inr ⟨'+', second, third, fourth, letter,
          codePoint?_eq_some_iff.mpr (Or.inr ⟨rfl, isCode⟩), rfl⟩)

/-- Two parts that stand at one place are the same: two characters tell of which kind a part is, and
then the whole part is determined. -/
theorem LiteralPart.IsRead.unique {first second : LiteralPart} (firstRead : first.IsRead)
    (secondRead : second.IsRead) {behind after : List Char}
    (same : first.written ++ behind = second.written ++ after) : first = second := by
  rcases firstRead.form with ⟨letter, notBackslash, rfl⟩ | ⟨mark, letter, listed, rfl⟩ |
      ⟨a, b, c, d, letter, decoded, rfl⟩ <;>
    rcases secondRead.form with ⟨other, otherNotBackslash, rfl⟩ |
      ⟨otherMark, other, otherListed, rfl⟩ | ⟨a', b', c', d', other, otherDecoded, rfl⟩ <;>
    simp only [List.cons_append, List.nil_append, List.cons.injEq] at same
  · rw [same.1]
  · exact absurd same.1 notBackslash
  · exact absurd same.1 notBackslash
  · exact absurd same.1.symm otherNotBackslash
  · obtain ⟨-, rfl, -⟩ := same
    rw [← escape?_eq_some_iff] at listed otherListed
    rw [Option.some.inj (listed.symm.trans otherListed)]
  · obtain ⟨-, rfl, -⟩ := same
    exact absurd listed (not_mem_shortEscapes letter)
  · exact absurd same.1.symm otherNotBackslash
  · obtain ⟨-, rfl, -⟩ := same
    exact absurd otherListed (not_mem_shortEscapes other)
  · obtain ⟨-, -, rfl, rfl, rfl, rfl, -⟩ := same
    rw [Option.some.inj (decoded.symm.trans otherDecoded)]

theorem parts_unique {parts others : List LiteralPart}
    (areRead : ∀ part ∈ parts, part.IsRead) (othersRead : ∀ part ∈ others, part.IsRead)
    {rest after : List Char} (noPart : StartsNoPart rest) (noOther : StartsNoPart after)
    (same : text parts ++ rest = text others ++ after) : parts = others ∧ rest = after := by
  induction parts generalizing others with
  | nil =>
    cases others with
    | nil => exact ⟨rfl, same⟩
    | cons first more =>
      rw [text, text, List.flatMap_cons, List.append_assoc] at same
      exact absurd ⟨_, same.symm⟩ (noPart first (othersRead first List.mem_cons_self))
  | cons head tail inductionHypothesis =>
    obtain ⟨headRead, tailRead⟩ := List.forall_mem_cons.mp areRead
    cases others with
    | nil =>
      rw [text, text, List.flatMap_cons, List.append_assoc] at same
      exact absurd ⟨_, same⟩ (noOther head headRead)
    | cons first more =>
      obtain ⟨firstRead, moreRead⟩ := List.forall_mem_cons.mp othersRead
      rw [text, text, List.flatMap_cons, List.flatMap_cons, List.append_assoc,
        List.append_assoc] at same
      obtain rfl := headRead.unique firstRead same
      obtain ⟨rfl, sameRest⟩ :=
        inductionHypothesis tailRead moreRead (List.append_cancel_left same)
      exact ⟨rfl, sameRest⟩

/-- What is read up to a closing quote is some parts, and what is read of them is their content. -/
theorem textBody_eq_ok_iff {source literal after : List Char} :
    textBody source = .ok (literal, after) ↔
      ∃ parts, (∀ part ∈ parts, LiteralPart.IsRead part) ∧ source = text parts ++ '"' :: after ∧
        literal = content parts := by
  constructor
  · intro read
    obtain ⟨parts, rest, areRead, rfl, noPart⟩ := exists_parts source
    rw [textBody_text_append areRead noPart] at read
    unfold concluded at read
    split at read
    · cases read
      exact ⟨parts, areRead, rfl, rfl⟩
    · cases read
  · rintro ⟨parts, areRead, rfl, rfl⟩
    rw [textBody_text_append areRead (startsNoPart_quote after), concluded]

/-- A literal breaks off where neither a part nor the closing quote stands. -/
theorem textBody_eq_error_iff {source failure : List Char} :
    textBody source = .error failure ↔
      ∃ parts, (∀ part ∈ parts, LiteralPart.IsRead part) ∧ source = text parts ++ failure ∧
        StartsNoPart failure ∧ failure.head? ≠ some '"' := by
  constructor
  · intro read
    obtain ⟨parts, rest, areRead, rfl, noPart⟩ := exists_parts source
    rw [textBody_text_append areRead noPart] at read
    by_cases quote : rest.head? = some '"'
    · obtain ⟨after, rfl⟩ := List.head?_eq_some_iff.mp quote
      cases read
    · rw [concluded_of_ne_quote quote] at read
      cases read
      exact ⟨parts, areRead, rfl, noPart, quote⟩
  · rintro ⟨parts, areRead, rfl, noPart, noQuote⟩
    rw [textBody_text_append areRead noPart, concluded_of_ne_quote noQuote]

/-! ### Broken literals -/

theorem tokens_of_textBody_error {source failure : List Char}
    (broken : textBody source = .error failure) :
    tokens ('"' :: source) = [⟨.brokenText failure, '"' :: source⟩] := by
  have isBroken : next '"' source = (.brokenText failure, []) := by
    unfold next
    have notMark : mark? '"' = none := rfl
    rw [notMark]
    dsimp only
    rw [dif_neg (by decide), if_pos (beq_self_eq_true '"'), broken]
  have skipped : skipIgnored false ('"' :: source) = '"' :: source := rfl
  rw [tokens_of_skipIgnored_cons skipped, isBroken, tokens_of_skipIgnored_nil rfl]

/-- A source that starts with a broken literal is refused where the literal breaks off. -/
theorem parse_of_textBody_error {source failure : List Char}
    (broken : textBody source = .error failure) :
    Constant.parse (String.ofList ('"' :: source)) =
      .error (.before ('"' :: source) failure) := by
  simp only [Constant.parse, String.toList_ofList, tokens_of_textBody_error broken]
  rfl

/-! ### The literals of the language -/

/-- Some parts are those of a literal of the language, from behind its opening quote up to its
closing quote. -/
structure IsLiteral (source : List Char) (parts : List LiteralPart) (after : List Char) :
    Prop where
  regular : ∀ part ∈ parts, LiteralPart.IsRegular part
  split : source = text parts ++ '"' :: after

/-- What stands behind an opening quote is taken as in the language: a literal stands for the
content of its parts, and where no literal stands the source is refused. -/
structure ReadsAsLanguage (source : List Char) : Prop where
  read : ∀ literal after, textBody source = .ok (literal, after) ↔
    ∃ parts, IsLiteral source parts after ∧ literal = content parts
  refused : (∀ parts after, ¬IsLiteral source parts after) →
    ∃ error, Constant.parse (String.ofList ('"' :: source)) = .error error

theorem LiteralPart.IsRegular.not_isSigned {part : LiteralPart} (isRegular : part.IsRegular) :
    ¬part.IsSigned := by
  rintro ⟨three, signed⟩
  cases isRegular with
  | code _ isCode => exact not_isCode_plus _ _ isCode

/-- The plus sign is all that keeps a literal from being read as in the language. -/
theorem readsAsLanguage_iff_forall_not_isSigned {source : List Char} :
    ReadsAsLanguage source ↔
      ∀ parts after, (∀ part ∈ parts, LiteralPart.IsRead part) →
        source = text parts ++ '"' :: after → ∀ part ∈ parts, ¬part.IsSigned := by
  constructor
  · intro asLanguage parts after areRead split
    obtain ⟨others, literal, -⟩ := (asLanguage.read (content parts) after).mp
      (textBody_eq_ok_iff.mpr ⟨parts, areRead, split, rfl⟩)
    obtain ⟨rfl, -⟩ := parts_unique areRead
      (fun part member => Or.inl (literal.regular part member)) (startsNoPart_quote after)
      (startsNoPart_quote after) (split.symm.trans literal.split)
    exact fun part member => (literal.regular part member).not_isSigned
  · intro notSigned
    have isLiteral : ∀ {literal after}, textBody source = .ok (literal, after) →
        ∃ parts, IsLiteral source parts after ∧ literal = content parts := by
      intro literal after read
      obtain ⟨parts, areRead, split, same⟩ := textBody_eq_ok_iff.mp read
      refine ⟨parts, ⟨fun part member => ?_, split⟩, same⟩
      exact (areRead part member).resolve_right (notSigned parts after areRead split part member)
    refine ⟨fun literal after => ⟨isLiteral, ?_⟩, fun noLiteral => ?_⟩
    · rintro ⟨parts, ⟨regular, split⟩, same⟩
      exact textBody_eq_ok_iff.mpr
        ⟨parts, fun part member => Or.inl (regular part member), split, same⟩
    · cases read : textBody source with
      | error failure => exact ⟨_, parse_of_textBody_error read⟩
      | ok result =>
        obtain ⟨literal, after⟩ := result
        obtain ⟨parts, isParts, -⟩ := isLiteral read
        exact absurd isParts (noLiteral parts after)

theorem LiteralPart.IsSigned.written_eq {part : LiteralPart} (isSigned : part.IsSigned) :
    ∃ digits, part.written = ['\\', 'u', '+'] ++ digits := by
  obtain ⟨-, -⟩ := isSigned
  exact ⟨_, rfl⟩

/-- Without a plus sign for the first digit of a code a source is read as in the language. -/
theorem readsAsLanguage_of_not_infix {source : List Char}
    (noPlus : ¬['\\', 'u', '+'] <:+: source) : ReadsAsLanguage source := by
  rw [readsAsLanguage_iff_forall_not_isSigned]
  rintro parts after - rfl part member isSigned
  obtain ⟨front, back, rfl⟩ := List.append_of_mem member
  obtain ⟨digits, written⟩ := isSigned.written_eq
  refine noPlus ⟨text front, digits ++ text back ++ '"' :: after, ?_⟩
  simp [text, written]

example : ReadsAsLanguage ['\\', 'u', '0', '0', '4', '1', '"'] :=
  readsAsLanguage_of_not_infix (by decide)

/-- What stands behind a quote is read part by part up to the closing quote, and breaks off, as an
error there, where neither stands. It is taken as in the language unless a plus sign stands for
the first digit of a code. -/
theorem readsAsLanguage_iff (source : List Char) :
    (∀ literal after, textBody source = .ok (literal, after) ↔
      ∃ parts, (∀ part ∈ parts, LiteralPart.IsRead part) ∧ source = text parts ++ '"' :: after ∧
        literal = content parts) ∧
    (∀ failure, textBody source = .error failure ↔
      ∃ parts, (∀ part ∈ parts, LiteralPart.IsRead part) ∧ source = text parts ++ failure ∧
        StartsNoPart failure ∧ failure.head? ≠ some '"') ∧
    (∀ failure, textBody source = .error failure →
      Constant.parse (String.ofList ('"' :: source)) =
        .error (.before ('"' :: source) failure)) ∧
    (ReadsAsLanguage source ↔
      ∀ parts after, (∀ part ∈ parts, LiteralPart.IsRead part) →
        source = text parts ++ '"' :: after → ∀ part ∈ parts, ¬part.IsSigned) :=
  ⟨fun _ _ => textBody_eq_ok_iff, fun _ => textBody_eq_error_iff,
    fun _ => parse_of_textBody_error, readsAsLanguage_iff_forall_not_isSigned⟩

/-- A plus sign and three digits are taken for the code of a letter. -/
theorem not_readsAsLanguage_of_plus_sign :
    ¬ReadsAsLanguage ['\\', 'u', '+', '0', '4', '1', '"'] ∧
      Constant.parse "\"\\u+041\"" = .ok (.text "A") := by
  have isSigned : LiteralPart.IsSigned ⟨['\\', 'u', '+', '0', '4', '1'], 'A'⟩ :=
    .mk rfl ((isCode_iff (by decide)).mpr ⟨65, by decide, by decide, by decide⟩)
  constructor
  · rw [readsAsLanguage_iff_forall_not_isSigned]
    intro notSigned
    refine notSigned [_] [] ?_ rfl _ List.mem_cons_self isSigned
    exact List.forall_mem_singleton.mpr (Or.inr isSigned)
  · have spelled : Spells (.text "A") "\"\\u+041\"".toList := ⟨_, rfl, rfl⟩
    exact Constant.parse_eq_ok_iff_laid.mpr ⟨trivial, (LaidBare.token spelled).laid⟩

end Grammar

end SchemaAssembly
