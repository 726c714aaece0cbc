/-
This file proves that a line break keeps what stands before it apart from what stands behind it.
It ends a comment, separates words, and cannot stand within a token, so two sources with a line
break between them are a layout of some tokens exactly when each of them is a layout of its share.
The same holds in front of a token: what stands before it is a layout of the tokens before it.
-/

import SchemaAssembly.Proofs.Grammar.TextLiteral

namespace SchemaAssembly

open Grammar

theorem Name.isNamePart_of_mem (name : Name) {letter : Char} (member : letter ∈ name.letters) :
    isNamePart letter = true := by
  obtain ⟨letters, valid⟩ := name
  cases letters with
  | nil => cases valid
  | cons first others =>
    rw [isNameText, Bool.and_eq_true, List.all_eq_true] at valid
    rcases List.mem_cons.mp member with rfl | inOthers
    · rw [isNamePart_eq, valid.1, Bool.true_or]
    · exact valid.2 letter inOthers

namespace Grammar

/-! ### Ignored text -/

/-- Of what follows ignored text only the first character matters. -/
theorem IsIgnored.inFrontOf {after other gap : List Char} (ignored : IsIgnored after gap)
    (sameHead : ∀ letter ∈ other.head?, letter ∈ after.head?) : IsIgnored other gap := by
  induction ignored with
  | nil => exact .nil
  | blank ignorable _ inductionHypothesis => exact .blank ignorable inductionHypothesis
  | @comment body rest inLine ends _ inductionHypothesis =>
    refine .comment inLine ?_ inductionHypothesis
    cases rest with
    | nil => exact fun letter isFirst => ends letter (sameHead letter isFirst)
    | cons letter others => exact ends

/-- A line break ends a comment, so ignored text goes on behind it. -/
theorem IsIgnored.append_line {after front gap : List Char} (first : IsIgnored [] front)
    (second : IsIgnored after gap) : IsIgnored after (front ++ '\n' :: gap) := by
  induction first with
  | nil => exact .blank rfl second
  | blank ignorable _ inductionHypothesis => exact .blank ignorable inductionHypothesis
  | @comment body rest inLine ends _ inductionHypothesis =>
    rw [List.cons_append, List.append_assoc]
    refine .comment inLine ?_ inductionHypothesis
    cases rest with
    | nil =>
      rintro _ ⟨⟩
      rfl
    | cons letter others => exact ends

/-- Where a text in two parts is broken into two lines, the break is within the first part or
within the second. -/
theorem broken_first_or_second {first second front behind : List Char}
    (same : first ++ second = front ++ '\n' :: behind) :
    (∃ more, first = front ++ '\n' :: more ∧ behind = more ++ second) ∨
      ∃ more, front = first ++ more ∧ second = more ++ '\n' :: behind := by
  rcases List.append_eq_append_iff.mp same with inSecond | ⟨more, rfl, cut⟩
  · exact Or.inr inSecond
  · cases more with
    | nil => exact Or.inr ⟨[], by rw [List.append_nil, List.append_nil], cut.symm⟩
    | cons letter others =>
      obtain ⟨rfl, rfl⟩ := List.cons.inj cut
      exact Or.inl ⟨others, rfl, rfl⟩

/-- A line break behind a part without any is in the other part. -/
theorem broken_second {first second front behind : List Char}
    (inLine : ∀ letter ∈ first, isLineEnd letter = false)
    (same : first ++ second = front ++ '\n' :: behind) :
    ∃ more, front = first ++ more ∧ second = more ++ '\n' :: behind := by
  refine (broken_first_or_second same).resolve_left ?_
  rintro ⟨more, rfl, -⟩
  exact absurd (inLine '\n' (List.mem_append_right front List.mem_cons_self)) (by decide)

/-- Ignored text that is broken into two lines is ignored in each of them. -/
theorem IsIgnored.split_line {after front gap : List Char}
    (ignored : IsIgnored after (front ++ '\n' :: gap)) :
    IsIgnored [] front ∧ IsIgnored after gap := by
  generalize whole : front ++ '\n' :: gap = text at ignored
  induction ignored generalizing front with
  | nil => simp at whole
  | blank ignorable ignored inductionHypothesis =>
    cases front with
    | nil =>
      cases whole
      exact ⟨.nil, ignored⟩
    | cons letter others =>
      obtain ⟨rfl, same⟩ := List.cons.inj whole
      obtain ⟨first, second⟩ := inductionHypothesis same
      exact ⟨.blank ignorable first, second⟩
  | @comment body rest inLine ends ignored inductionHypothesis =>
    cases front with
    | nil => cases whole
    | cons letter others =>
      obtain ⟨rfl, same⟩ := List.cons.inj whole
      obtain ⟨more, rfl, split⟩ := broken_second inLine same.symm
      obtain ⟨first, second⟩ := inductionHypothesis split.symm
      refine ⟨.comment inLine ?_ first, second⟩
      rw [List.append_nil]
      cases more with
      | nil => exact fun _ isFirst => absurd isFirst (Option.not_mem_none _)
      | cons letter others =>
        rw [split] at ends
        exact ends

/-! ### Tokens stand on one line -/

theorem isLineEnd_eq_false_of_isNamePart {letter : Char} (isPart : isNamePart letter = true) :
    isLineEnd letter = false := by
  rw [Bool.eq_false_iff]
  intro lineEnd
  rw [isNamePart_eq_false_of_isIgnorable (isIgnorable_of_isLineEnd lineEnd)] at isPart
  exact Bool.false_ne_true isPart

theorem IsDigits.lineEnd_free {text : List Char} (isDigits : IsDigits text) :
    ∀ letter ∈ text, isLineEnd letter = false := by
  intro letter member
  refine isLineEnd_eq_false_of_isNamePart ?_
  rw [isNamePart_eq, isDigits.2 letter member, Bool.or_true]

theorem IsWhole.lineEnd_free {text : List Char} (isWhole : IsWhole text) :
    ∀ letter ∈ text, isLineEnd letter = false := by
  obtain ⟨sign, digits, rfl, isSign, isDigits⟩ := isWhole
  refine List.forall_mem_append.mpr ⟨?_, isDigits.lineEnd_free⟩
  rcases isSign with rfl | rfl
  · exact List.forall_mem_nil _
  · exact List.forall_mem_singleton.mpr rfl

theorem IsFloat.lineEnd_free {text : List Char} (isFloat : IsFloat text) :
    ∀ letter ∈ text, isLineEnd letter = false := by
  obtain ⟨whole, point, power, rfl, isWhole, isPoint, isPower, -⟩ := isFloat
  refine List.forall_mem_append.mpr ⟨isWhole.lineEnd_free, List.forall_mem_append.mpr ⟨?_, ?_⟩⟩
  · rcases isPoint with rfl | ⟨digits, rfl, isDigits⟩
    · exact List.forall_mem_nil _
    · exact List.forall_mem_cons.mpr ⟨rfl, isDigits.lineEnd_free⟩
  · rcases isPower with rfl | ⟨mark, sign, digits, rfl, isMark, isSign, isDigits⟩
    · exact List.forall_mem_nil _
    · refine List.forall_mem_cons.mpr
        ⟨?_, List.forall_mem_append.mpr ⟨?_, isDigits.lineEnd_free⟩⟩
      · rcases isMark with rfl | rfl <;> rfl
      · rcases isSign with rfl | rfl | rfl
        · exact List.forall_mem_nil _
        · exact List.forall_mem_singleton.mpr rfl
        · exact List.forall_mem_singleton.mpr rfl

theorem IsCode.lineEnd_free {digits : List Char} {letter : Char} (isCode : IsCode digits letter) :
    ∀ digit ∈ digits, isLineEnd digit = false := by
  have notLineFeed : ∀ value < 16, ¬IsHexDigit '\n' value := by decide
  have notReturn : ∀ value < 16, ¬IsHexDigit '\r' value := by decide
  obtain ⟨values, areDigits, -⟩ := isCode
  induction areDigits with
  | nil => exact List.forall_mem_nil _
  | @cons digit value _ _ isDigit _ inductionHypothesis =>
    refine List.forall_mem_cons.mpr ⟨?_, inductionHypothesis⟩
    refine isLineEnd_eq_false ?_ ?_ <;> rintro rfl
    · exact notLineFeed value isDigit.bounds.2 isDigit
    · exact notReturn value isDigit.bounds.2 isDigit

/-- No part of a literal holds a line break. -/
theorem LiteralPart.IsRead.lineEnd_free {part : LiteralPart} (isRead : part.IsRead) :
    ∀ letter ∈ part.written, isLineEnd letter = false := by
  rcases isRead with isRegular | isSigned
  · cases isRegular with
    | plain _ _ notLineFeed notReturn =>
      exact List.forall_mem_singleton.mpr (isLineEnd_eq_false notLineFeed notReturn)
    | @short mark letter listed =>
      have marks : ∀ escape ∈ shortEscapes, isLineEnd escape.1 = false := by decide
      exact List.forall_mem_cons.mpr ⟨rfl, List.forall_mem_singleton.mpr (marks _ listed)⟩
    | code _ isCode =>
      exact List.forall_mem_cons.mpr ⟨rfl, List.forall_mem_cons.mpr ⟨rfl, isCode.lineEnd_free⟩⟩
  · cases isSigned with
    | mk _ isCode =>
      refine List.forall_mem_cons.mpr ⟨rfl, List.forall_mem_cons.mpr ⟨rfl, ?_⟩⟩
      exact List.forall_mem_cons.mpr ⟨rfl, isCode.lineEnd_free⟩

theorem IsTextLiteral.lineEnd_free {content text : List Char}
    (isLiteral : IsTextLiteral content text) : ∀ letter ∈ text, isLineEnd letter = false := by
  obtain ⟨body, rfl, read⟩ := isLiteral
  obtain ⟨parts, areRead, rfl, -⟩ := textBody_eq_ok_iff.mp read
  refine List.forall_mem_cons.mpr ⟨rfl, List.forall_mem_append.mpr ⟨fun letter member => ?_, ?_⟩⟩
  · obtain ⟨part, isPart, inPart⟩ := List.mem_flatMap.mp member
    exact (areRead part isPart).lineEnd_free letter inPart
  · exact List.forall_mem_singleton.mpr rfl

/-- No text of a token holds a line break. -/
theorem Spells.lineEnd_free {token : Token} {text : List Char} (spelled : Spells token text) :
    ∀ letter ∈ text, isLineEnd letter = false := by
  cases token with
  | mark mark =>
    obtain rfl : text = [mark.letter] := spelled
    refine List.forall_mem_singleton.mpr ?_
    cases mark <;> rfl
  | name name =>
    obtain rfl : text = name.letters := spelled
    exact fun letter member => isLineEnd_eq_false_of_isNamePart (name.isNamePart_of_mem member)
  | int digits => exact spelled.2.lineEnd_free
  | float digits => exact spelled.2.lineEnd_free
  | text content => exact IsTextLiteral.lineEnd_free spelled
  | brokenText failure => exact spelled.elim
  | stray => exact spelled.elim

/-! ### Layouts on several lines -/

theorem not_startsWord_of_append {first second : List Char}
    (noWord : ¬StartsWord (first ++ second)) : ¬StartsWord first := by
  rintro ⟨letter, rest, rfl, isPart⟩
  exact noWord ⟨letter, rest ++ second, rfl, isPart⟩

theorem not_startsWord_append_line {first second : List Char} (noWord : ¬StartsWord first) :
    ¬StartsWord (first ++ '\n' :: second) :=
  not_startsWord_append noWord (not_startsWord_cons rfl second)

/-- The first character of a token is the first of what starts with it. -/
theorem Spells.head?_append {token : Token} {text : List Char} (spelled : Spells token text)
    (rest : List Char) : ∀ other : List Char, (text ++ other).head? = (text ++ rest).head? := by
  obtain ⟨first, others, rfl, -⟩ := spelled.exists_cons
  exact fun other => rfl

/-- Ignored text may stand in a line of its own in front of a layout. -/
theorem IsIgnored.append_layout {front rest : List Char} {tokens : List Token}
    (ignored : IsIgnored [] front) (laid : Laid tokens rest) :
    Laid tokens (front ++ '\n' :: rest) := by
  cases laid with
  | nil others => exact .nil (ignored.append_line others)
  | cons others spelled apart laid =>
    have whole := Laid.cons (ignored.append_line others) spelled apart laid
    rwa [List.append_assoc, List.cons_append] at whole

/-- Two sources with a line break between them say what each of them says. -/
theorem Laid.append_line {first second : List Token} {front rest : List Char}
    (laid : Laid first front) (behind : Laid second rest) :
    Laid (first ++ second) (front ++ '\n' :: rest) := by
  induction laid with
  | nil ignored => exact ignored.append_layout behind
  | cons ignored spelled apart _ inductionHypothesis =>
    rw [List.append_assoc, List.append_assoc]
    refine .cons (ignored.inFrontOf ?_) spelled ?_ inductionHypothesis
    · rw [spelled.head?_append]
      exact fun _ isFirst => isFirst
    · exact fun isWord => not_startsWord_append_line (apart isWord)

/-- A source that is broken into two lines says what these say one after the other. -/
theorem Laid.split_line {tokens : List Token} {front rest : List Char}
    (laid : Laid tokens (front ++ '\n' :: rest)) :
    ∃ first second, tokens = first ++ second ∧ Laid first front ∧ Laid second rest := by
  generalize whole : front ++ '\n' :: rest = source at laid
  induction laid generalizing front with
  | nil ignored =>
    subst whole
    obtain ⟨first, second⟩ := ignored.split_line
    exact ⟨[], [], rfl, .nil first, .nil second⟩
  | @cons token tokens gap text behind ignored spelled apart laid inductionHypothesis =>
    rcases broken_first_or_second whole.symm with ⟨more, rfl, rfl⟩ | ⟨more, rfl, cut⟩
    · obtain ⟨first, second⟩ := ignored.split_line
      exact ⟨[], token :: tokens, rfl, .nil first, .cons second spelled apart laid⟩
    · obtain ⟨further, rfl, rfl⟩ := broken_second spelled.lineEnd_free cut
      obtain ⟨first, second, rfl, laidFirst, laidSecond⟩ := inductionHypothesis rfl
      refine ⟨token :: first, second, rfl, .cons (ignored.inFrontOf ?_) spelled ?_ laidFirst,
        laidSecond⟩
      · rw [spelled.head?_append]
        exact fun _ isFirst => isFirst
      · exact fun isWord => not_startsWord_of_append (apart isWord)

end Grammar

end SchemaAssembly
