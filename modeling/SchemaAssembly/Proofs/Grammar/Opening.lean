/-
This file proves what a production sees at the start of a source. Ignored items are what is skipped
in front of a token, so a production that starts where no ignored text stands sees the first token,
and each choice that it makes by a character is a choice by that token.
-/

import SchemaAssembly.Proofs.Grammar.ErrorPosition
import SchemaAssembly.Proofs.Grammar.Production

namespace SchemaAssembly.Grammar

/-! ### Tokens at the start -/

/-- No mark of a kind stands at the start of some tokens. -/
def StartsWithout (mark : Mark) (placed : List Placed) : Prop :=
  ∀ first ∈ placed.head?, first.token ≠ .mark mark

/-- No name stands at the start of some tokens. -/
def StartsWithoutName (placed : List Placed) : Prop :=
  ∀ first ∈ placed.head?, ∀ name, first.token ≠ .name name

namespace Production

variable {α : Type} {source rest : List Char} {value : α}

/-! ### Ignored text -/

/-- Behind ignored text nothing is ignored. -/
theorem startsUnignored_skipIgnored (inComment : Bool) (source : List Char) :
    StartsUnignored (skipIgnored inComment source) := by
  induction source generalizing inComment with
  | nil => exact fun _ isFirst => by cases isFirst
  | cons letter rest inductionHypothesis =>
    unfold skipIgnored
    split
    · exact inductionHypothesis _
    · split
      · exact inductionHypothesis _
      · next notBlank =>
        split
        · exact inductionHypothesis _
        · next notComment =>
          rintro _ ⟨⟩
          exact ⟨Bool.eq_false_iff.mpr notBlank, fun same => notComment (beq_iff_eq.mpr same)⟩

/-- Ignored text does not change the tokens. -/
theorem tokens_skipIgnored (source : List Char) :
    tokens (skipIgnored false source) = tokens source := by
  have again := skipIgnored_of_startsUnignored (startsUnignored_skipIgnored false source)
  cases skipped : skipIgnored false source with
  | nil => rw [tokens_of_skipIgnored_nil skipped, tokens_of_skipIgnored_nil rfl]
  | cons first rest =>
    rw [skipped] at again
    rw [tokens_of_skipIgnored_cons skipped, tokens_of_skipIgnored_cons again]

theorem isIgnorable_of_isBlank {letter : Char} (blank : isBlank letter = true) :
    isIgnorable letter = true := by
  rw [isIgnorable, ← isBlank, blank, Bool.true_or]

/-- Ignored text ends in the same place if its first blanks have been taken. -/
theorem skipIgnored_dropWhile_isBlank (source : List Char) :
    skipIgnored false (source.dropWhile isBlank) = skipIgnored false source := by
  induction source with
  | nil => rfl
  | cons letter rest inductionHypothesis =>
    rw [List.dropWhile_cons]
    split
    · next blank =>
      rw [skipIgnored_blank (isIgnorable_of_isBlank blank)]
      exact inductionHypothesis
    · rfl

theorem skipIgnored_restOfLine (source : List Char) :
    skipIgnored false (source.dropWhile fun letter => !isLineEnd letter) =
      skipIgnored true source := by
  induction source with
  | nil => rfl
  | cons letter rest inductionHypothesis =>
    rw [List.dropWhile_cons]
    cases lineEnd : isLineEnd letter with
    | true =>
      rw [if_neg (by decide)]
      exact (skipIgnored_lineEnd fun _ isFirst => by cases isFirst; exact lineEnd).symm
    | false =>
      rw [Bool.not_false, if_pos rfl, inductionHypothesis, skipIgnored, if_pos rfl, lineEnd,
        Bool.not_false]

/-- An ignored item is skipped, and where there is none nothing is. -/
theorem ignoredItem_cases (source : List Char) :
    (∃ rest, ignoredItem source = .taken () rest ∧
      skipIgnored false source = skipIgnored false rest) ∨
    ∃ place, ignoredItem source = .absent place ∧ skipIgnored false source = source := by
  cases source with
  | nil => exact Or.inr ⟨[], rfl, rfl⟩
  | cons letter rest =>
    cases blank : isBlank letter with
    | true =>
      have taken : blanks (letter :: rest) = .taken () (rest.dropWhile isBlank) := if_pos blank
      refine Or.inl ⟨rest.dropWhile isBlank, by simp [ignoredItem, taken], ?_⟩
      rw [skipIgnored_blank (isIgnorable_of_isBlank blank), skipIgnored_dropWhile_isBlank]
    | false =>
      have absent : blanks (letter :: rest) = .absent (letter :: rest) :=
        if_neg (by rw [blank]; exact Bool.false_ne_true)
      by_cases isComma : letter = ','
      · subst isComma
        exact Or.inl ⟨rest, by simp [ignoredItem, absent, symbol], skipIgnored_blank rfl rest⟩
      · have noComma : symbol ',' (letter :: rest) = .absent (letter :: rest) := if_neg isComma
        by_cases isComment : letter = '#'
        · subst isComment
          refine Or.inl ⟨rest.dropWhile fun letter => !isLineEnd letter, ?_, ?_⟩
          · simp [ignoredItem, absent, comment, symbol, restOfLine]
          · rw [skipIgnored_comment]
            exact (skipIgnored_restOfLine rest).symm
        · have noComment : symbol '#' (letter :: rest) = .absent (letter :: rest) :=
            if_neg isComment
          refine Or.inr ⟨letter :: rest, ?_, skipIgnored_of_startsUnignored ?_⟩
          · simp [ignoredItem, absent, noComma, comment, noComment]
          · rintro _ ⟨⟩
            refine ⟨?_, isComment⟩
            rw [isIgnorable, ← isBlank, blank, Bool.false_or, beq_eq_false_iff_ne]
            exact isComma

/-- Taken item by item, ignored text ends in the same place as when it is skipped. -/
theorem exists_turns_ignoredItem {count : Nat} {source : List Char}
    (enough : source.length < count) :
    ∃ items, turns ignoredItem count source = .taken items (skipIgnored false source) := by
  induction count generalizing source with
  | zero => exact absurd enough (Nat.not_lt_zero _)
  | succ count inductionHypothesis =>
    obtain ⟨rest, taken, skipped⟩ | ⟨place, absent, skipped⟩ := ignoredItem_cases source
    · have shorter := (advancesOn_ignoredItem source).shorter taken
      obtain ⟨items, takenItems⟩ :=
        inductionHypothesis (Nat.lt_of_lt_of_le shorter (Nat.le_of_lt_succ enough))
      refine ⟨() :: items, ?_⟩
      rw [turns_of_taken taken shorter, takenItems, skipped]
      rfl
    · rw [skipped]
      exact ⟨[], turns_of_absent absent count⟩

/-- The ignored items at the start of a source are what is skipped. -/
@[simp]
theorem ignored_eq (source : List Char) :
    ignored source = .taken () (skipIgnored false source) := by
  obtain ⟨items, taken⟩ := exists_turns_ignoredItem (Nat.lt_succ_self source.length)
  simp [ignored, repeated, taken]

theorem spaced_of_taken {production : Production α}
    (taken : production source = .taken value rest) :
    spaced production source = .taken value (skipIgnored false rest) := by
  simp [spaced, taken]

/-! ### The token at the start -/

/-- What may stand where no ignored text does: the end of the source, or a token, with the
characters that it starts with. -/
inductive Opening : List Char → List Placed → Prop
  | atEnd : Opening [] []
  | mark (mark : Mark) (rest : List Char) :
      Opening (mark.letter :: rest) (⟨.mark mark, mark.letter :: rest⟩ :: tokens rest)
  | name {first : Char} {rest : List Char} (start : isNameStart first = true) :
      Opening (first :: rest)
        (⟨.name ⟨first :: rest.takeWhile isNamePart, isNameText_takeWhile start rest⟩,
          first :: rest⟩ :: tokens (rest.dropWhile isNamePart))
  | text {rest letters after : List Char} (read : textBody rest = .ok (letters, after)) :
      Opening ('"' :: rest) (⟨.text (String.ofList letters), '"' :: rest⟩ :: tokens after)
  | brokenText {rest failure : List Char} (read : textBody rest = .error failure) :
      Opening ('"' :: rest) [⟨.brokenText failure, '"' :: rest⟩]
  | number {first : Char} {rest after : List Char} {token : Token} (notMark : mark? first = none)
      (notName : isNameStart first = false) (notQuote : first ≠ '"')
      (read : number? (first :: rest) = some (token, after)) :
      Opening (first :: rest) (⟨token, first :: rest⟩ :: tokens after)
  | stray {first : Char} {rest : List Char} (notMark : mark? first = none)
      (notName : isNameStart first = false) (notQuote : first ≠ '"')
      (notNumber : number? (first :: rest) = none) :
      Opening (first :: rest) [⟨.stray, first :: rest⟩]

/-- The first token tells what stands behind ignored text. -/
theorem opening_tokens (source : List Char) :
    Opening (skipIgnored false source) (tokens source) := by
  have noTokens : tokens [] = [] := tokens_of_skipIgnored_nil rfl
  cases skipped : skipIgnored false source with
  | nil => rw [tokens_of_skipIgnored_nil skipped]; exact .atEnd
  | cons first rest =>
    rw [tokens_of_skipIgnored_cons skipped]
    unfold next
    split
    · next mark found =>
      rw [(mark?_eq_some_iff first mark).mp found]
      exact .mark mark rest
    · next notMark =>
      split
      · next start => exact .name start
      · next notStart =>
        have notName := Bool.eq_false_iff.mpr notStart
        split
        · next isQuote =>
          rw [beq_iff_eq.mp isQuote]
          split
          · next read => exact .text read
          · next read => rw [noTokens]; exact .brokenText read
        · next noQuote =>
          have notQuote : first ≠ '"' := fun same => noQuote (beq_iff_eq.mpr same)
          split
          · next read => exact .number notMark notName notQuote read
          · next read => rw [noTokens]; exact .stray notMark notName notQuote read

/-! ### Marks and names -/

/-- A number is a whole one, or one with a fraction or an exponent. -/
theorem isNumber_of_number? {token : Token} (read : number? source = some (token, rest)) :
    ∃ digits, token = .int digits ∨ token = .float digits := by
  unfold number? at read
  split at read
  · cases read
  · dsimp only at read
    split at read
    · cases read
    · split at read
      · cases read
        exact ⟨_, Or.inl rfl⟩
      · cases read
        exact ⟨_, Or.inr rfl⟩

/-- Marks are told apart by their characters. -/
theorem letter_injective {first second : Mark} (same : first.letter = second.letter) :
    first = second := by
  have found := (mark?_eq_some_iff first.letter first).mpr rfl
  rw [same, (mark?_eq_some_iff second.letter second).mpr rfl] at found
  exact (Option.some.inj found).symm

theorem startsWithout_nil (mark : Mark) : StartsWithout mark [] :=
  fun _ isFirst => nomatch isFirst

theorem startsWithout_cons {mark : Mark} {token : Token} (differs : token ≠ .mark mark)
    (place : List Char) (others : List Placed) :
    StartsWithout mark (⟨token, place⟩ :: others) := by
  rintro _ ⟨⟩
  exact differs

theorem startsWithoutName_nil : StartsWithoutName [] :=
  fun _ isFirst => nomatch isFirst

theorem startsWithoutName_cons {token : Token} (noName : ∀ name, token ≠ .name name)
    (place : List Char) (others : List Placed) : StartsWithoutName (⟨token, place⟩ :: others) := by
  rintro _ ⟨⟩
  exact noName

theorem symbol_of_ne {letter first : Char} (differs : first ≠ letter) (rest : List Char) :
    symbol letter (first :: rest) = .absent (first :: rest) :=
  if_neg differs

theorem mark_taken (mark : Mark) (rest : List Char) :
    Production.mark mark (mark.letter :: rest) = .taken () rest :=
  if_pos rfl

theorem eq_cons_of_mark_taken {mark : Mark} (taken : Production.mark mark source = .taken () rest) :
    source = mark.letter :: rest := by
  unfold Production.mark symbol at taken
  split at taken
  · cases taken
  · split at taken
    · next isLetter =>
      cases taken
      rw [isLetter]
    · cases taken

/-- A character that is no mark is not taken for one. -/
theorem mark_of_mark?_eq_none {first : Char} (notMark : mark? first = none) (mark : Mark)
    (rest : List Char) : Production.mark mark (first :: rest) = .absent (first :: rest) := by
  refine symbol_of_ne (fun same => ?_) rest
  rw [(mark?_eq_some_iff first mark).mpr same] at notMark
  cases notMark

theorem someName_of_not_isNameStart {first : Char} (notStart : isNameStart first = false)
    (rest : List Char) : someName (first :: rest) = .absent (first :: rest) :=
  dif_neg (Bool.eq_false_iff.mp notStart)

theorem someName_of_isNameStart {first : Char} (start : isNameStart first = true)
    (rest : List Char) :
    someName (first :: rest) =
      .taken ⟨first :: rest.takeWhile isNamePart, isNameText_takeWhile start rest⟩
        (rest.dropWhile isNamePart) :=
  dif_pos start

/-- A production and a reader agree on whether a mark stands at the start. -/
theorem mark_cases {placed : List Placed} (opening : Opening source placed) (mark : Mark) :
    (∃ rest, Production.mark mark source = .taken () rest ∧
      placed = ⟨.mark mark, source⟩ :: tokens rest) ∨
    Production.mark mark source = .absent source ∧ StartsWithout mark placed := by
  cases opening with
  | atEnd => exact Or.inr ⟨rfl, startsWithout_nil mark⟩
  | mark found rest =>
    by_cases same : found = mark
    · subst same
      exact Or.inl ⟨rest, mark_taken found rest, rfl⟩
    · refine Or.inr ⟨symbol_of_ne (fun sameLetter => same (letter_injective sameLetter)) rest, ?_⟩
      exact startsWithout_cons (fun isMark => same (Token.mark.inj isMark)) _ _
  | name start =>
    refine Or.inr ⟨mark_of_mark?_eq_none (mark?_eq_none_of_isNamePart ?_) mark _,
      startsWithout_cons (by nofun) _ _⟩
    rw [isNamePart_eq, start, Bool.true_or]
  | text => exact Or.inr ⟨mark_of_mark?_eq_none rfl mark _, startsWithout_cons (by nofun) _ _⟩
  | brokenText =>
    exact Or.inr ⟨mark_of_mark?_eq_none rfl mark _, startsWithout_cons (by nofun) _ _⟩
  | number notMark _ _ read =>
    refine Or.inr ⟨mark_of_mark?_eq_none notMark mark _, startsWithout_cons ?_ _ _⟩
    obtain ⟨digits, rfl | rfl⟩ := isNumber_of_number? read <;> exact nofun
  | stray notMark =>
    exact Or.inr ⟨mark_of_mark?_eq_none notMark mark _, startsWithout_cons (by nofun) _ _⟩

/-- A production and a reader agree on whether a name stands at the start. -/
theorem someName_cases {placed : List Placed} (opening : Opening source placed) :
    (∃ name rest, someName source = .taken name rest ∧
      placed = ⟨.name name, source⟩ :: tokens rest) ∨
    someName source = .absent source ∧ StartsWithoutName placed := by
  cases opening with
  | atEnd => exact Or.inr ⟨rfl, startsWithoutName_nil⟩
  | mark found rest =>
    have notStart : isNameStart found.letter = false := by cases found <;> rfl
    exact Or.inr ⟨someName_of_not_isNameStart notStart _, startsWithoutName_cons (by nofun) _ _⟩
  | name start => exact Or.inl ⟨_, _, someName_of_isNameStart start _, rfl⟩
  | text =>
    exact Or.inr ⟨someName_of_not_isNameStart rfl _, startsWithoutName_cons (by nofun) _ _⟩
  | brokenText =>
    exact Or.inr ⟨someName_of_not_isNameStart rfl _, startsWithoutName_cons (by nofun) _ _⟩
  | number _ notName _ read =>
    refine Or.inr ⟨someName_of_not_isNameStart notName _, startsWithoutName_cons ?_ _ _⟩
    obtain ⟨digits, rfl | rfl⟩ := isNumber_of_number? read <;> exact nofun
  | stray _ notName =>
    exact Or.inr ⟨someName_of_not_isNameStart notName _, startsWithoutName_cons (by nofun) _ _⟩

end Production

end SchemaAssembly.Grammar
