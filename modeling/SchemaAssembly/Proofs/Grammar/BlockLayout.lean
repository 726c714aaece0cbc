/-
This file is about sources with block strings, which stand between three quotes on each side. The
syntax here has none, so a source with block strings is split as if it had none: two quotes are an
empty text, and in place of the one text that a block string stands for there are three, of which
the first and the last are empty.
-/

import SchemaAssembly.Proofs.Grammar.ConstantText

namespace SchemaAssembly.Grammar

/-! ### Words -/

/-- The content of a block string that stands for itself: no character in it has another meaning,
and there is no white space around it that could be taken away. -/
structure BlockText where
  content : List Char
  nonempty : content ≠ []
  plain : ∀ letter ∈ content, letter ≠ '"' ∧ letter ≠ '\\' ∧ isLineEnd letter = false
  trimmed : (∀ letter ∈ content.head?, letter.isWhitespace = false) ∧
    ∀ letter ∈ content.getLast?, letter.isWhitespace = false

/-- The text of a block string. -/
def BlockText.text (block : BlockText) : List Char :=
  '"' :: '"' :: '"' :: (block.content ++ ['"', '"', '"'])

/-- What a source with block strings consists of. -/
inductive Word
  | plain (token : Token)
  | block (written : BlockText)

namespace Word

/-- The token that a word means: a block string means the text that is its content. -/
def meant : Word → Token
  | .plain token => token
  | .block written => .text (String.ofList written.content)

/-- The tokens as which a word is read: a block string as three texts. -/
def asRead : Word → List Token
  | .plain token => [token]
  | .block written => [.text "", .text (String.ofList written.content), .text ""]

end Word

/-! ### Layouts -/

/-- A source consists of the spellings of some words, with ignored text before each of them, and
goes on with `rest` behind ignored text. No third quote stands directly behind an empty text that is
written with two, for the three would start a block string. -/
inductive LaidWords (rest : List Char) : List Word → List Char → Prop
  | nil {gap : List Char} (ignored : IsIgnored rest gap) : LaidWords rest [] (gap ++ rest)
  | plain {token : Token} {words : List Word} {gap text behind : List Char}
      (ignored : IsIgnored (text ++ behind) gap) (spelled : Spells token text)
      (apart : token.IsWord → ¬StartsWord behind)
      (noThird : text = ['"', '"'] → behind.head? ≠ some '"')
      (laid : LaidWords rest words behind) :
      LaidWords rest (.plain token :: words) (gap ++ (text ++ behind))
  | block {written : BlockText} {words : List Word} {gap behind : List Char}
      (ignored : IsIgnored (written.text ++ behind) gap) (laid : LaidWords rest words behind) :
      LaidWords rest (.block written :: words) (gap ++ (written.text ++ behind))

theorem LaidWords.mark {rest behind : List Char} {words : List Word} (mark : Mark)
    (laid : LaidWords rest words behind) :
    LaidWords rest (.plain (.mark mark) :: words) (mark.letter :: behind) := by
  have spelled : Spells (.mark mark) [mark.letter] := rfl
  exact .plain .nil spelled False.elim (by simp) laid

theorem LaidWords.name {rest behind : List Char} {words : List Word} (name : Name)
    (apart : ¬StartsWord behind) (laid : LaidWords rest words behind) :
    LaidWords rest (.plain (.name name) :: words) (name.letters ++ behind) := by
  have spelled : Spells (.name name) name.letters := rfl
  refine .plain .nil spelled (fun _ => apart) (fun isEmpty => ?_) laid
  have valid := name.valid
  rw [isEmpty] at valid
  exact absurd valid (by decide)

/-- In front of a block string a source goes on with three quotes. -/
theorem LaidWords.of_block {rest source : List Char} {before after : List Word}
    {block : BlockText} (laid : LaidWords rest (before ++ .block block :: after) source) :
    ∃ behind, LaidWords ('"' :: '"' :: '"' :: behind) before source := by
  induction before generalizing source with
  | nil =>
    cases laid with
    | block ignored laid => exact ⟨_, .nil ignored⟩
  | cons first others inductionHypothesis =>
    cases laid with
    | plain ignored spelled apart noThird laid =>
      obtain ⟨behind, inFront⟩ := inductionHypothesis laid
      exact ⟨behind, .plain ignored spelled apart noThird inFront⟩
    | block ignored laid =>
      obtain ⟨behind, inFront⟩ := inductionHypothesis laid
      exact ⟨behind, .block ignored inFront⟩

/-! ### How they are read -/

/-- Ignored text does not start with a point. -/
theorem IsIgnored.append_head_ne_point {after gap : List Char} (ignored : IsIgnored after gap)
    (noPoint : ∀ letter ∈ after.head?, letter ≠ '.') :
    ∀ letter ∈ (gap ++ after).head?, letter ≠ '.' := by
  cases gap with
  | nil => exact noPoint
  | cons first others => exact ignored.head_ne_point

theorem LaidWords.head_ne_point {rest source : List Char} {words : List Word}
    (laid : LaidWords rest words source) (quoted : ∀ letter ∈ rest.head?, letter = '"') :
    ∀ letter ∈ source.head?, letter ≠ '.' := by
  cases laid with
  | nil ignored =>
    refine ignored.append_head_ne_point fun letter isFirst => ?_
    rw [quoted letter isFirst]
    decide
  | plain ignored spelled apart noThird laid =>
    refine ignored.append_head_ne_point ?_
    obtain ⟨first, others, rfl, opens⟩ := spelled.exists_cons
    rintro _ ⟨⟩ rfl
    exact opens (Or.inr (Or.inr rfl))
  | block ignored laid =>
    refine ignored.append_head_ne_point ?_
    rintro _ ⟨⟩
    decide

theorem spells_empty : Spells (.text "") ['"', '"'] :=
  ⟨['"'], rfl, rfl⟩

theorem textBody_append_quote {content : List Char}
    (plain : ∀ letter ∈ content, letter ≠ '"' ∧ letter ≠ '\\' ∧ isLineEnd letter = false)
    (rest : List Char) : textBody (content ++ '"' :: rest) = .ok (content, rest) := by
  induction content with
  | nil => rfl
  | cons letter others inductionHypothesis =>
    obtain ⟨⟨notQuote, notBackslash, notLineEnd⟩, othersPlain⟩ := List.forall_mem_cons.mp plain
    rw [List.cons_append, textBody_plain notQuote notBackslash notLineEnd,
      inductionHypothesis othersPlain]
    rfl

/-- The content of a block string between single quotes is a text literal. -/
theorem BlockText.spells_content (block : BlockText) :
    Spells (.text (String.ofList block.content)) ('"' :: (block.content ++ ['"'])) := by
  refine ⟨block.content ++ ['"'], rfl, ?_⟩
  rw [String.toList_ofList]
  exact textBody_append_quote block.plain []

/-- Ignored text at the start makes no difference for the tokens. -/
theorem tokens_congr {source other : List Char}
    (same : skipIgnored false source = skipIgnored false other) : tokens source = tokens other := by
  cases skipped : skipIgnored false other with
  | nil => rw [tokens_of_skipIgnored_nil skipped, tokens_of_skipIgnored_nil (same.trans skipped)]
  | cons first rest =>
    rw [tokens_of_skipIgnored_cons skipped, tokens_of_skipIgnored_cons (same.trans skipped)]

theorem map_tokens_text {content : String} {text gap behind : List Char}
    (ignored : IsIgnored (text ++ behind) gap) (spelled : Spells (.text content) text)
    (noPoint : ∀ letter ∈ behind.head?, letter ≠ '.') :
    (tokens (gap ++ (text ++ behind))).map Placed.token =
      .text content :: (tokens behind).map Placed.token := by
  rw [tokens_gap_append ignored spelled False.elim noPoint, List.map_cons]

/-- A block string is split into three texts, whatever stands behind it. -/
theorem map_tokens_block (block : BlockText) {gap behind : List Char}
    (ignored : IsIgnored (block.text ++ behind) gap)
    (noPoint : ∀ letter ∈ behind.head?, letter ≠ '.') :
    (tokens (gap ++ (block.text ++ behind))).map Placed.token =
      (Word.block block).asRead ++ (tokens behind).map Placed.token := by
  have quoteFirst : ∀ rest : List Char, ∀ letter ∈ ('"' :: rest).head?, letter ≠ '.' := by
    rintro _ _ ⟨⟩
    decide
  have parts : block.text ++ behind =
      ['"', '"'] ++ ('"' :: (block.content ++ ['"']) ++ (['"', '"'] ++ behind)) := by
    simp only [BlockText.text, List.cons_append, List.nil_append, List.append_assoc]
  rw [parts] at ignored ⊢
  rw [map_tokens_text ignored spells_empty (quoteFirst _)]
  refine congrArg (_ :: ·) ((map_tokens_text .nil block.spells_content (quoteFirst _)).trans ?_)
  exact congrArg (_ :: ·) (map_tokens_text .nil spells_empty noPoint)

/-- A source with block strings is split into what its words are read as. -/
theorem LaidWords.map_tokens {rest source : List Char} {words : List Word}
    (laid : LaidWords rest words source) (quoted : ∀ letter ∈ rest.head?, letter = '"') :
    (tokens source).map Placed.token =
      words.flatMap Word.asRead ++ (tokens rest).map Placed.token := by
  induction laid with
  | nil ignored =>
    have starts : StartsUnignored rest := by
      intro letter isFirst
      rw [quoted letter isFirst]
      decide
    have same := (skipIgnored_append ignored starts).trans
      (skipIgnored_of_startsUnignored starts).symm
    rw [tokens_congr same, List.flatMap_nil, List.nil_append]
  | plain ignored spelled apart noThird laid inductionHypothesis =>
    rw [tokens_gap_append ignored spelled apart (laid.head_ne_point quoted), List.map_cons,
      inductionHypothesis, List.flatMap_cons, List.append_assoc]
    rfl
  | block ignored laid inductionHypothesis =>
    rw [map_tokens_block _ ignored (laid.head_ne_point quoted), inductionHypothesis,
      List.flatMap_cons, List.append_assoc]

/-- A whole source is split into what its words are read as, and nothing else. -/
theorem LaidWords.map_tokens_eq {source : List Char} {words : List Word}
    (laid : LaidWords [] words source) :
    (tokens source).map Placed.token = words.flatMap Word.asRead := by
  rw [laid.map_tokens nofun, tokens_of_skipIgnored_nil rfl, List.map_nil, List.append_nil]

end SchemaAssembly.Grammar
