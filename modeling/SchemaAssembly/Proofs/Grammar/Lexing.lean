/-
This file proves that a source is split into tokens exactly as it may be laid out: where all
tokens can be read, the source is a layout of them, and a layout of some tokens is split into
these. No source is therefore a layout of two lists of tokens.
-/

import SchemaAssembly.Proofs.Grammar.Numeral

namespace SchemaAssembly.Grammar

/-- A token that could be read, and that therefore has a spelling. -/
def Token.IsReadable : Token → Prop
  | .brokenText _ => False
  | .stray => False
  | _ => True

theorem Spells.isReadable {token : Token} {text : List Char} (spelled : Spells token text) :
    token.IsReadable := by
  cases token <;> first | exact spelled | trivial

/-! ### The first character of a token -/

/-- Characters with which no token starts. -/
def OpensNothing (letter : Char) : Prop :=
  isIgnorable letter = true ∨ letter = '#' ∨ letter = '.'

theorem OpensNothing.not_isNamePart {letter : Char} (opens : OpensNothing letter) :
    isNamePart letter = false ∧ letter ≠ '-' ∧ letter ≠ '"' := by
  rcases opens with ignorable | rfl | rfl
  · simp only [isIgnorable, Bool.or_eq_true, beq_iff_eq] at ignorable
    rcases ignorable with (((rfl | rfl) | rfl) | rfl) | rfl <;> decide
  · decide
  · decide

theorem opensNothing_of_isNamePart {letter : Char} (isPart : isNamePart letter = true) :
    ¬OpensNothing letter := by
  intro opens
  rw [opens.not_isNamePart.1] at isPart
  exact Bool.false_ne_true isPart

/-- Each mark is one character, and each such character is one mark. -/
theorem mark?_eq_some_iff (letter : Char) (mark : Mark) :
    mark? letter = some mark ↔ letter = mark.letter := by
  constructor
  · intro found
    unfold mark? at found
    split at found <;> first | cases found; rfl | simp at found
  · rintro rfl
    cases mark <;> rfl

theorem mark?_eq_none_of_isNamePart {letter : Char} (isPart : isNamePart letter = true) :
    mark? letter = none := by
  rw [Option.eq_none_iff_forall_ne_some]
  intro mark found
  rw [(mark?_eq_some_iff letter mark).mp found] at isPart
  cases mark <;> exact absurd isPart (by decide)

theorem isNameStart_eq_false_of_isDigit {letter : Char} (isDigit : letter.isDigit = true) :
    isNameStart letter = false := by
  have bounds : 48 ≤ letter.toNat ∧ letter.toNat ≤ 57 := by
    simpa [Char.isDigit, UInt32.le_iff_toNat_le] using isDigit
  have notUnderscore : letter ≠ '_' := by
    rintro rfl
    exact absurd bounds (by decide)
  have notAlpha : letter.isAlpha = false := by
    unfold Char.isAlpha Char.isUpper Char.isLower
    simp [UInt32.le_iff_toNat_le]
    omega
  rw [isNameStart, notAlpha, Bool.or_false, beq_eq_false_iff_ne]
  exact notUnderscore

/-- A number starts with a minus sign or a digit, so it is neither a mark nor a name. -/
theorem IsWhole.exists_cons {text : List Char} (isWhole : IsWhole text) :
    ∃ first rest, text = first :: rest ∧ ¬OpensNothing first ∧ mark? first = none ∧
      isNameStart first = false ∧ first ≠ '"' := by
  obtain ⟨front, digits, rfl, isSign, nonempty, all⟩ := isWhole
  rcases isSign with rfl | rfl
  · cases digits with
    | nil => exact absurd rfl nonempty
    | cons first rest =>
      have isDigit : first.isDigit = true := all first List.mem_cons_self
      have isPart : isNamePart first = true := by
        rw [isNamePart_eq, isDigit, Bool.or_true]
      refine ⟨first, rest, rfl, opensNothing_of_isNamePart isPart,
        mark?_eq_none_of_isNamePart isPart, isNameStart_eq_false_of_isDigit isDigit, ?_⟩
      rintro rfl
      exact absurd isDigit (by decide)
  · exact ⟨'-', digits, rfl, fun opens => opens.not_isNamePart.2.1 rfl, rfl, rfl, by decide⟩

/-! ### One token -/

/-- No word starts where the first character is no part of a name. -/
theorem startsWord_iff (source : List Char) :
    ¬StartsWord source ↔ ∀ letter ∈ source.head?, isNamePart letter = false := by
  cases source with
  | nil => simp [StartsWord]
  | cons letter rest => simp [StartsWord]

/-- A literal is read up to its closing quote, whatever follows that. -/
theorem textBody_split {source content after : List Char}
    (read : textBody source = .ok (content, after)) :
    ∃ body, source = body ++ after ∧ ∀ rest, textBody (body ++ rest) = .ok (content, rest) := by
  fun_induction textBody source generalizing content after with
  | case1 => simp at read
  | case2 others =>
    cases read
    exact ⟨['"'], rfl, fun _ => rfl⟩
  | case3 first second third fourth others letter decoded inductionHypothesis =>
    obtain ⟨letters, rfl, inner⟩ := withLetter_eq_ok read
    obtain ⟨body, rfl, own⟩ := inductionHypothesis inner
    refine ⟨'\\' :: 'u' :: first :: second :: third :: fourth :: body, rfl, fun rest => ?_⟩
    simp only [List.cons_append]
    rw [textBody, decoded]
    dsimp only
    rw [own]
    rfl
  | case4 => simp at read
  | case5 mark others notUnicode letter decoded inductionHypothesis =>
    obtain ⟨letters, rfl, inner⟩ := withLetter_eq_ok read
    obtain ⟨body, rfl, own⟩ := inductionHypothesis inner
    refine ⟨'\\' :: mark :: body, rfl, fun rest => ?_⟩
    simp only [List.cons_append]
    rw [textBody, decoded]
    · dsimp only
      rw [own]
      rfl
    · rintro _ _ _ _ _ rfl
      simp [Text.escape?] at decoded
  | case6 => simp at read
  | case7 => simp at read
  | case8 letter others notQuote _ _ plain inductionHypothesis =>
    obtain ⟨letters, rfl, inner⟩ := withLetter_eq_ok read
    obtain ⟨body, rfl, own⟩ := inductionHypothesis inner
    have notBackslash : letter ≠ '\\' := by
      rintro rfl
      exact plain rfl
    refine ⟨letter :: body, rfl, fun rest => ?_⟩
    rw [List.cons_append, textBody, if_neg plain, own]
    · rfl
    · exact notQuote
    · exact fun _ _ _ _ _ isBackslash _ => notBackslash isBackslash
    · exact fun _ _ isBackslash _ => notBackslash isBackslash

theorem textBody_append {body content : List Char} (read : textBody body = .ok (content, []))
    (rest : List Char) : textBody (body ++ rest) = .ok (content, rest) := by
  obtain ⟨used, rfl, own⟩ := textBody_split read
  rw [List.append_nil]
  exact own rest

/-- What is read as a token is spelled as one, and no word runs on into what follows. -/
theorem next_spelled {first : Char} {rest after : List Char} {token : Token}
    (read : next first rest = (token, after)) (readable : token.IsReadable) :
    ∃ text, first :: rest = text ++ after ∧ Spells token text ∧
      (token.IsWord → ¬StartsWord after) := by
  unfold next at read
  split at read
  · next mark found =>
    cases read
    rw [(mark?_eq_some_iff first mark).mp found]
    exact ⟨[mark.letter], rfl, rfl, fun isWord => isWord.elim⟩
  · split at read
    · next start =>
      cases read
      refine ⟨first :: rest.takeWhile isNamePart, ?_, rfl, fun _ => ?_⟩
      · rw [List.cons_append, List.takeWhile_append_dropWhile]
      · rw [startsWord_iff]
        exact dropWhile_head?_eq_false isNamePart rest
    · split at read
      · next isQuote =>
        rw [beq_iff_eq] at isQuote
        split at read
        · next letters after body =>
          cases read
          obtain ⟨literal, split, own⟩ := textBody_split body
          refine ⟨'"' :: literal, ?_, ⟨literal, rfl, ?_⟩, fun isWord => isWord.elim⟩
          · rw [isQuote, split, List.cons_append]
          · rw [String.toList_ofList]
            simpa using own []
        · cases read
          exact readable.elim
      · split at read
        · next number after found =>
          cases read
          obtain ⟨text, split, spelled, ends⟩ := number?_eq_some found
          refine ⟨text, split, spelled, fun _ => ?_⟩
          rw [startsWord_iff]
          exact fun letter isFirst => (ends letter isFirst).1
        · cases read
          exact readable.elim

theorem next_append_number {whole point power rest : List Char} (isWhole : IsWhole whole)
    (isPoint : point = [] ∨ IsFraction point) (isPower : power = [] ∨ IsExponent power)
    (apart : ¬StartsWord rest) (noPoint : ∀ letter ∈ rest.head?, letter ≠ '.') :
    ∃ first others, whole ++ (point ++ power) = first :: others ∧ ¬OpensNothing first ∧
      next first (others ++ rest) =
        (if point = [] ∧ power = [] then .int (String.ofList whole)
          else .float (String.ofList (whole ++ (point ++ power))), rest) := by
  obtain ⟨first, others, rfl, opens, notMark, notName, notQuote⟩ := isWhole.exists_cons
  rw [startsWord_iff] at apart
  have ends : EndsNumber rest := fun letter isFirst =>
    ⟨apart letter isFirst, noPoint letter isFirst⟩
  refine ⟨first, others ++ (point ++ power), rfl, opens, ?_⟩
  have read := number?_append isWhole isPoint isPower ends
  rw [List.cons_append, List.cons_append] at read
  unfold next
  rw [notMark]
  dsimp only
  rw [dif_neg (by rw [notName]; exact Bool.false_ne_true),
    if_neg (by rw [beq_iff_eq]; exact notQuote), read]
  rfl

/-- A spelled token is read as that token, and what follows it is left. -/
theorem next_append {token : Token} {text rest : List Char} (spelled : Spells token text)
    (apart : token.IsWord → ¬StartsWord rest) (noPoint : ∀ letter ∈ rest.head?, letter ≠ '.') :
    ∃ first others, text = first :: others ∧ ¬OpensNothing first ∧
      next first (others ++ rest) = (token, rest) := by
  cases token with
  | mark mark =>
    obtain rfl : text = [mark.letter] := spelled
    refine ⟨mark.letter, [], rfl, ?_, ?_⟩
    · cases mark <;> simp [OpensNothing, Mark.letter, isIgnorable]
    · unfold next
      rw [(mark?_eq_some_iff mark.letter mark).mpr rfl]
      rfl
  | name name =>
    obtain rfl : text = name.letters := spelled
    obtain ⟨letters, valid⟩ := name
    cases letters with
    | nil => simp [isNameText] at valid
    | cons first others =>
      have parts := valid
      rw [isNameText, Bool.and_eq_true] at parts
      have isPart : isNamePart first = true := by
        rw [isNamePart_eq, parts.1, Bool.true_or]
      have taken := takeWhile_dropWhile_append (List.all_eq_true.mp parts.2)
        ((startsWord_iff rest).mp (apart trivial))
      refine ⟨first, others, rfl, opensNothing_of_isNamePart isPart, ?_⟩
      unfold next
      rw [mark?_eq_none_of_isNamePart isPart]
      dsimp only
      rw [dif_pos parts.1]
      simp only [taken.1, taken.2]
  | int digits =>
    obtain ⟨rfl, isWhole⟩ := spelled
    obtain ⟨first, others, split, opens, read⟩ :=
      next_append_number isWhole (Or.inl rfl) (Or.inl rfl) (apart trivial) noPoint
    rw [List.append_nil, List.append_nil] at split
    rw [if_pos ⟨rfl, rfl⟩, String.ofList_toList] at read
    exact ⟨first, others, split, opens, read⟩
  | float digits =>
    obtain ⟨isDigits, whole, point, power, rfl, isWhole, isPoint, isPower, notPlain⟩ := spelled
    obtain ⟨first, others, split, opens, read⟩ :=
      next_append_number isWhole isPoint isPower (apart trivial) noPoint
    rw [if_neg notPlain, isDigits, String.ofList_toList] at read
    exact ⟨first, others, split, opens, read⟩
  | text content =>
    obtain ⟨body, rfl, read⟩ := spelled
    refine ⟨'"', body, rfl, fun opens => opens.not_isNamePart.2.2 rfl, ?_⟩
    unfold next
    have notMark : mark? '"' = none := rfl
    rw [notMark]
    dsimp only
    rw [dif_neg (by decide), if_pos (beq_self_eq_true '"'), textBody_append read]
    dsimp only
    rw [String.ofList_toList]
  | brokenText failure => exact spelled.elim
  | stray => exact spelled.elim

/-! ### All tokens -/

theorem tokens_of_skipIgnored_nil {source : List Char} (skipped : skipIgnored false source = []) :
    tokens source = [] := by
  unfold tokens
  split
  · rfl
  · next start => cases skipped.symm.trans start

/-- The first token is read where ignored text ends, and the others behind it. -/
theorem tokens_of_skipIgnored_cons {source : List Char} {first : Char} {rest : List Char}
    (skipped : skipIgnored false source = first :: rest) :
    tokens source = ⟨(next first rest).1, first :: rest⟩ :: tokens (next first rest).2 := by
  rw [tokens]
  split
  · next start => cases skipped.symm.trans start
  · next start =>
    cases skipped.symm.trans start
    rfl

theorem IsIgnored.head_ne_point {after gap : List Char} (ignored : IsIgnored after gap) :
    ∀ letter ∈ gap.head?, letter ≠ '.' := by
  cases ignored with
  | nil => simp
  | blank ignorable ignored =>
    rintro _ ⟨⟩ rfl
    exact absurd ignorable (by decide)
  | comment inLine ends ignored =>
    rintro _ ⟨⟩
    decide

theorem startsUnignored_of_not_opensNothing {first : Char} (opens : ¬OpensNothing first)
    (rest : List Char) : StartsUnignored (first :: rest) := by
  rintro _ ⟨⟩
  exact ⟨eq_false_of_ne_true fun ignorable => opens (Or.inl ignorable),
    fun isComment => opens (Or.inr (Or.inl isComment))⟩

/-- No layout starts with a point, so a number before it is over. -/
theorem Laid.head_ne_point {tokens : List Token} {source : List Char} (laid : Laid tokens source) :
    ∀ letter ∈ source.head?, letter ≠ '.' := by
  induction laid with
  | nil ignored => exact ignored.head_ne_point
  | cons ignored spelled apart laid inductionHypothesis =>
    next gap text rest =>
    obtain ⟨first, others, rfl, opens, -⟩ := next_append spelled apart inductionHypothesis
    cases gap with
    | nil =>
      rintro _ ⟨⟩ rfl
      exact opens (Or.inr (Or.inr rfl))
    | cons letter more => exact ignored.head_ne_point

/-- A spelled token behind ignored text is the first of its source. -/
theorem tokens_gap_append {token : Token} {gap text rest : List Char}
    (ignored : IsIgnored (text ++ rest) gap) (spelled : Spells token text)
    (apart : token.IsWord → ¬StartsWord rest) (noPoint : ∀ letter ∈ rest.head?, letter ≠ '.') :
    tokens (gap ++ (text ++ rest)) = ⟨token, text ++ rest⟩ :: tokens rest := by
  obtain ⟨first, others, rfl, opens, read⟩ := next_append spelled apart noPoint
  have skipped := skipIgnored_append ignored (startsUnignored_of_not_opensNothing opens _)
  rw [List.cons_append] at skipped
  rw [List.cons_append, tokens_of_skipIgnored_cons skipped, read]

/-- A layout of some tokens is split into them. -/
theorem Laid.tokens_eq {expected : List Token} {source : List Char}
    (laid : Laid expected source) : (tokens source).map Placed.token = expected := by
  induction laid with
  | nil ignored =>
    have starts : StartsUnignored [] := by simp [StartsUnignored]
    have skipped := skipIgnored_append ignored starts
    rw [List.append_nil] at skipped
    rw [tokens_of_skipIgnored_nil skipped, List.map_nil]
  | cons ignored spelled apart laid inductionHypothesis =>
    rw [tokens_gap_append ignored spelled apart laid.head_ne_point, List.map_cons,
      inductionHypothesis]

theorem Laid.isReadable {tokens : List Token} {source : List Char} (laid : Laid tokens source) :
    ∀ token ∈ tokens, token.IsReadable := by
  induction laid with
  | nil => simp
  | cons ignored spelled apart laid inductionHypothesis =>
    exact List.forall_mem_cons.mpr ⟨spelled.isReadable, inductionHypothesis⟩

/-- A source all of whose tokens could be read is a layout of them. -/
theorem laid_tokens (source : List Char)
    (readable : ∀ placed ∈ tokens source, placed.token.IsReadable) :
    Laid ((tokens source).map Placed.token) source := by
  fun_induction tokens source with
  | case1 source skipped =>
    obtain ⟨body, gap, split, ignored, noBody, -⟩ := exists_isIgnored_skipIgnored false source
    rw [skipped] at split ignored
    rw [noBody rfl, List.nil_append, List.append_nil] at split
    rw [split]
    exact .nil ignored
  | case2 source first rest skipped inductionHypothesis =>
    obtain ⟨body, gap, split, ignored, noBody, -⟩ := exists_isIgnored_skipIgnored false source
    rw [skipped] at split ignored
    rw [noBody rfl, List.nil_append] at split
    obtain ⟨firstReadable, othersReadable⟩ := List.forall_mem_cons.mp readable
    obtain ⟨text, whole, spelled, apart⟩ := next_spelled rfl firstReadable
    rw [whole] at split ignored
    rw [List.map_cons, split]
    exact .cons ignored spelled apart (inductionHypothesis othersReadable)

/-- Splitting and laying out are inverse to each other, up to the choice of layout. -/
theorem laid_iff {expected : List Token} {source : List Char} :
    Laid expected source ↔
      (tokens source).map Placed.token = expected ∧ ∀ token ∈ expected, token.IsReadable := by
  constructor
  · intro laid
    exact ⟨laid.tokens_eq, laid.isReadable⟩
  · rintro ⟨rfl, readable⟩
    exact laid_tokens source fun placed member => readable _ (List.mem_map_of_mem member)

end SchemaAssembly.Grammar
