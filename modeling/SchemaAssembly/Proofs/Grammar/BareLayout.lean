/-
This file is about sources without comments, in which only blanks and commas stand between the
tokens. Such sources can be put together: one that stands behind another does not change what the
first one says, as long as it does not go on with a word. A comment at the end of the first would
swallow the start of the second.
-/

import SchemaAssembly.Proofs.Grammar.Lexing

namespace SchemaAssembly.Grammar

/-- A layout without comments: only blanks and commas stand before, between and after the
tokens. -/
inductive LaidBare : List Token → List Char → Prop
  | nil {gap : List Char} (blank : ∀ letter ∈ gap, isIgnorable letter = true) : LaidBare [] gap
  | cons {token : Token} {tokens : List Token} {gap text rest : List Char}
      (blank : ∀ letter ∈ gap, isIgnorable letter = true) (spelled : Spells token text)
      (apart : token.IsWord → ¬StartsWord rest) (laid : LaidBare tokens rest) :
      LaidBare (token :: tokens) (gap ++ (text ++ rest))

/-- A source that consists of tokens with blanks and commas between them. -/
def IsBare (source : List Char) : Prop :=
  ∃ tokens, LaidBare tokens source

theorem isIgnored_of_blank {after gap : List Char}
    (blank : ∀ letter ∈ gap, isIgnorable letter = true) : IsIgnored after gap := by
  induction gap with
  | nil => exact .nil
  | cons letter rest inductionHypothesis =>
    obtain ⟨ignorable, others⟩ := List.forall_mem_cons.mp blank
    exact .blank ignorable (inductionHypothesis others)

/-- What is laid out without comments is laid out. -/
theorem LaidBare.laid {tokens : List Token} {source : List Char}
    (bare : LaidBare tokens source) : Laid tokens source := by
  induction bare with
  | nil blank => exact .nil (isIgnored_of_blank blank)
  | cons blank spelled apart _ inductionHypothesis =>
    exact .cons (isIgnored_of_blank blank) spelled apart inductionHypothesis

/-- A source without comments is laid out as the tokens that it is split into. -/
theorem IsBare.laidBare {tokens : List Token} {source : List Char} (bare : IsBare source)
    (laid : Laid tokens source) : LaidBare tokens source := by
  obtain ⟨others, laidBare⟩ := bare
  have same : others = tokens := laidBare.laid.tokens_eq.symm.trans laid.tokens_eq
  exact same ▸ laidBare

/-! ### Where no word starts -/

theorem not_startsWord_nil : ¬StartsWord [] := by
  rintro ⟨_, _, ⟨⟩, _⟩

/-- The text of a token has a first character, which opens a token. -/
theorem Spells.exists_cons {token : Token} {text : List Char} (spelled : Spells token text) :
    ∃ first others, text = first :: others ∧ ¬OpensNothing first := by
  obtain ⟨first, others, split, opens, -⟩ :=
    next_append spelled (fun _ => not_startsWord_nil) fun _ isFirst =>
      absurd isFirst (Option.not_mem_none _)
  exact ⟨first, others, split, opens⟩

theorem not_startsWord_cons {letter : Char} (notPart : isNamePart letter = false)
    (rest : List Char) : ¬StartsWord (letter :: rest) := by
  rw [startsWord_iff]
  rintro _ ⟨⟩
  exact notPart

/-- Two parts start no word if neither of them does. -/
theorem not_startsWord_append {first second : List Char} (noWord : ¬StartsWord first)
    (noWordBehind : ¬StartsWord second) : ¬StartsWord (first ++ second) := by
  cases first with
  | nil => exact noWordBehind
  | cons letter rest =>
    rw [startsWord_iff] at noWord
    exact not_startsWord_cons (noWord letter rfl) (rest ++ second)

theorem Mark.isNamePart_letter (mark : Mark) : isNamePart mark.letter = false := by
  cases mark <;> rfl

theorem isNamePart_eq_false_of_isIgnorable {letter : Char} (ignorable : isIgnorable letter = true) :
    isNamePart letter = false :=
  (OpensNothing.not_isNamePart (Or.inl ignorable)).1

/-- Ignored text starts no word. -/
theorem IsIgnored.not_startsWord {after gap : List Char} (ignored : IsIgnored after gap) :
    ¬StartsWord gap := by
  cases ignored with
  | nil => exact not_startsWord_nil
  | blank ignorable _ => exact not_startsWord_cons (isNamePart_eq_false_of_isIgnorable ignorable) _
  | comment _ _ _ => exact not_startsWord_cons rfl _

/-! ### Putting sources together -/

namespace LaidBare

/-- Blanks may stand in front of what is laid out. -/
theorem blanks {tokens : List Token} {gap source : List Char}
    (blank : ∀ letter ∈ gap, isIgnorable letter = true) (laid : LaidBare tokens source) :
    LaidBare tokens (gap ++ source) := by
  cases laid with
  | nil others => exact .nil (List.forall_mem_append.mpr ⟨blank, others⟩)
  | cons others spelled apart laid =>
    rw [← List.append_assoc]
    exact .cons (List.forall_mem_append.mpr ⟨blank, others⟩) spelled apart laid

theorem space {tokens : List Token} {source : List Char} (laid : LaidBare tokens source) :
    LaidBare tokens (' ' :: source) :=
  laid.blanks (List.forall_mem_singleton.mpr rfl)

theorem comma {tokens : List Token} {source : List Char} (laid : LaidBare tokens source) :
    LaidBare tokens (',' :: source) :=
  laid.blanks (List.forall_mem_singleton.mpr rfl)

theorem empty : LaidBare [] [] :=
  .nil (List.forall_mem_nil _)

theorem token {token : Token} {text : List Char} (spelled : Spells token text) :
    LaidBare [token] text := by
  have laid : LaidBare [token] ([] ++ (text ++ [])) :=
    .cons (List.forall_mem_nil _) spelled (fun _ => not_startsWord_nil) empty
  rwa [List.nil_append, List.append_nil] at laid

theorem mark (mark : Mark) {tokens : List Token} {source : List Char}
    (laid : LaidBare tokens source) : LaidBare (.mark mark :: tokens) (mark.letter :: source) := by
  have spelled : Spells (.mark mark) [mark.letter] := rfl
  exact .cons (List.forall_mem_nil _) spelled False.elim laid

/-- What a source says is not changed by what stands behind it, unless a word does. -/
theorem append {tokens others : List Token} {source rest : List Char}
    (laid : LaidBare tokens source) (behind : LaidBare others rest) (noWord : ¬StartsWord rest) :
    LaidBare (tokens ++ others) (source ++ rest) := by
  induction laid with
  | nil blank => exact behind.blanks blank
  | cons blank spelled apart _ inductionHypothesis =>
    rw [List.append_assoc, List.append_assoc]
    exact .cons blank spelled (fun isWord => not_startsWord_append (apart isWord) noWord)
      inductionHypothesis

/-- A name with something behind it that does not go on with a word. -/
theorem name (name : Name) {tokens : List Token} {source : List Char}
    (behind : LaidBare tokens source) (noWord : ¬StartsWord source) :
    LaidBare (.name name :: tokens) (name.letters ++ source) :=
  (token rfl : LaidBare [.name name] name.letters).append behind noWord

/-- One more part in front of parts that are separated by commas. -/
theorem intercalate {tokens others : List Token} {source : List Char} {sources : List (List Char)}
    (laid : LaidBare tokens source) (behind : LaidBare others ([',', ' '].intercalate sources)) :
    LaidBare (tokens ++ others) ([',', ' '].intercalate (source :: sources)) := by
  cases sources with
  | nil =>
    rw [List.intercalate_nil] at behind
    rw [List.intercalate_singleton, ← List.append_nil source]
    exact laid.append behind not_startsWord_nil
  | cons next further =>
    rw [List.intercalate_cons_cons, List.append_assoc]
    exact laid.append behind.space.comma (not_startsWord_cons rfl _)

end LaidBare

end SchemaAssembly.Grammar
