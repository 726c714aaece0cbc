/-
This file proves which texts are read as a reference to a type: those that consist of its tokens,
in the order in which it is spelled, with any ignored text around them. Nothing has to stand
between two of these tokens, since behind each name there is a mark. Brackets and marks that are
out of order are therefore refused, and the text of a reference is read back as that reference.
-/

import Mathlib.Data.List.Chain
import SchemaAssembly.ConfiguredType
import SchemaAssembly.Proofs.Grammar.BareLayout
import SchemaAssembly.Proofs.Grammar.TypeRef

namespace SchemaAssembly.Grammar

/-! ### Tokens that may touch -/

/-- A source consists of the spellings of some tokens, with ignored text before each of them and
after the last, all of which may be empty. -/
inductive Spread : List Token → List Char → Prop
  | nil {gap : List Char} (ignored : IsIgnored [] gap) : Spread [] gap
  | cons {token : Token} {tokens : List Token} {gap text rest : List Char}
      (ignored : IsIgnored (text ++ rest) gap) (spelled : Spells token text)
      (spread : Spread tokens rest) : Spread (token :: tokens) (gap ++ (text ++ rest))

/-- Two tokens that can stand side by side with nothing between them: behind a word there is a
mark. -/
def MayTouch (first second : Token) : Prop :=
  first.IsWord → ∃ mark, second = .mark mark

theorem Laid.spread {tokens : List Token} {source : List Char} (laid : Laid tokens source) :
    Spread tokens source := by
  induction laid with
  | nil ignored => exact .nil ignored
  | cons ignored spelled _ _ inductionHypothesis => exact .cons ignored spelled inductionHypothesis

/-- A source that goes on with a mark, if with anything, does not start with a word. -/
theorem Spread.not_startsWord {tokens : List Token} {source : List Char}
    (spread : Spread tokens source) (isMark : ∀ token ∈ tokens.head?, ∃ mark, token = .mark mark) :
    ¬StartsWord source := by
  cases spread with
  | nil ignored => exact ignored.not_startsWord
  | cons ignored spelled _ =>
    obtain ⟨mark, rfl⟩ := isMark _ rfl
    obtain rfl := spelled
    exact not_startsWord_append ignored.not_startsWord
      (not_startsWord_cons mark.isNamePart_letter _)

/-- Tokens that may touch are laid out however they are spread. -/
theorem Spread.laid {tokens : List Token} {source : List Char} (spread : Spread tokens source)
    (touching : tokens.IsChain MayTouch) : Laid tokens source := by
  induction spread with
  | nil ignored => exact .nil ignored
  | cons ignored spelled behind inductionHypothesis =>
    obtain ⟨next, others⟩ := List.isChain_cons.mp touching
    refine .cons ignored spelled (fun isWord => ?_) (inductionHypothesis others)
    exact behind.not_startsWord fun token isNext => next token isNext isWord

/-! ### Brackets and marks in order -/

/-- Every bracket that is closed has been opened before, and every one that is opened is closed;
`depth` of them are open at the start. -/
def IsBalanced : Nat → List Token → Prop
  | depth, [] => depth = 0
  | depth, .mark .openBracket :: rest => IsBalanced (depth + 1) rest
  | 0, .mark .closeBracket :: _ => False
  | depth + 1, .mark .closeBracket :: rest => IsBalanced depth rest
  | depth, _ :: rest => IsBalanced depth rest

/-- Two tokens that are not both exclamation points. -/
def NotBothMarks (first second : Token) : Prop :=
  ¬(first = .mark .exclamation ∧ second = .mark .exclamation)

end SchemaAssembly.Grammar

namespace SchemaAssembly.TypeRef

open Grammar

theorem isBalanced_markTokens_append (required : Bool) (depth : Nat) (rest : List Token) :
    IsBalanced depth (markTokens required ++ rest) ↔ IsBalanced depth rest := by
  cases required with
  | false => rfl
  | true => cases depth <;> rfl

/-- The tokens of a reference leave as many brackets open as there were. -/
theorem isBalanced_tokens_append (type : TypeRef) (depth : Nat) (rest : List Token) :
    IsBalanced depth (type.tokens ++ rest) ↔ IsBalanced depth rest := by
  induction type generalizing depth rest with
  | named name required =>
    rw [tokens, List.cons_append, ← isBalanced_markTokens_append required depth rest]
    cases depth <;> rfl
  | list item required inductionHypothesis =>
    rw [tokens, List.cons_append, List.append_assoc, List.cons_append, IsBalanced,
      inductionHypothesis, IsBalanced, isBalanced_markTokens_append]

theorem isBalanced_tokens (type : TypeRef) : IsBalanced 0 type.tokens := by
  rw [← List.append_nil type.tokens, isBalanced_tokens_append]
  rfl

/-- What may stand side by side in a reference: anything behind an opening bracket, a closing
bracket behind anything, and a mark behind what is none. -/
theorem isChain_tokens {related : Token → Token → Prop} (type : TypeRef)
    (opening : ∀ second, related (.mark .openBracket) second)
    (closing : ∀ first, related first (.mark .closeBracket))
    (marking : ∀ first, first ≠ .mark .exclamation → related first (.mark .exclamation)) :
    type.tokens.IsChain related := by
  have marked : ∀ first required, first ≠ .mark .exclamation →
      (first :: markTokens required).IsChain related := by
    intro first required notMark
    cases required with
    | false => exact .singleton first
    | true => exact List.isChain_cons_cons.mpr ⟨marking first notMark, .singleton _⟩
  induction type with
  | named name required => exact marked (.name name) required nofun
  | list item required inductionHypothesis =>
    refine List.isChain_cons.mpr ⟨fun second _ => opening second, ?_⟩
    refine List.isChain_append.mpr ⟨inductionHypothesis, marked _ required nofun, ?_⟩
    rintro last - _ ⟨⟩
    exact closing last

theorem isChain_mayTouch_tokens (type : TypeRef) : type.tokens.IsChain MayTouch :=
  type.isChain_tokens (fun _ isWord => isWord.elim) (fun _ _ => ⟨_, rfl⟩) fun _ _ _ => ⟨_, rfl⟩

theorem isChain_notBothMarks_tokens (type : TypeRef) : type.tokens.IsChain NotBothMarks :=
  type.isChain_tokens (fun _ both => nomatch both.1) (fun _ both => nomatch both.2)
    fun _ notMark both => notMark both.1

/-! ### Reading -/

theorem parse_eq_ok_iff_readType {type : TypeRef} {source : String} :
    parse source = .ok type ↔ readType (Grammar.tokens source.toList) = .read type [] := by
  unfold parse
  dsimp only
  cases readType (Grammar.tokens source.toList) with
  | read found rest =>
    cases rest with
    | nil => simp
    | cons => simp
  | missing => simp
  | broken => simp

/-- A reference is read where its tokens are laid out, and only there. -/
theorem parse_eq_ok_iff_laid {type : TypeRef} {source : String} :
    parse source = .ok type ↔ Laid type.tokens source.toList := by
  have noMark : type.isRequired = false → ¬Leads (.mark .exclamation) [] := by
    rintro - ⟨_, _, ⟨⟩⟩
  rw [parse_eq_ok_iff_readType, readType_eq_read_iff, and_iff_left noMark, uses_all_iff, laid_iff,
    and_iff_left type.isReadable_tokens]

/-! ### The text of a reference -/

theorem laidBare_mark (required : Bool) : LaidBare (markTokens required) (mark required) := by
  cases required with
  | false => exact .empty
  | true => exact LaidBare.empty.mark .exclamation

theorem not_startsWord_mark (required : Bool) : ¬StartsWord (mark required) := by
  cases required with
  | false => exact not_startsWord_nil
  | true => exact not_startsWord_cons rfl _

/-- The text of a reference holds its tokens with nothing between them. -/
theorem laidBare_letters (type : TypeRef) : LaidBare type.tokens type.letters := by
  induction type with
  | named name required =>
    exact (laidBare_mark required).name name (not_startsWord_mark required)
  | list item required inductionHypothesis =>
    have closing := (laidBare_mark required).mark .closeBracket
    exact (inductionHypothesis.append closing (not_startsWord_cons rfl _)).mark .openBracket

theorem toList_text (type : TypeRef) : type.text.toList = type.letters :=
  String.toList_ofList

theorem parse_text (type : TypeRef) : parse type.text = .ok type := by
  rw [parse_eq_ok_iff_laid, toList_text]
  exact type.laidBare_letters.laid

theorem isWhiteSpace_eq_false_of_isNameStart {letter : Char} (start : isNameStart letter = true) :
    Text.isWhiteSpace letter = false := by
  rw [isNameStart, Bool.or_eq_true, beq_iff_eq] at start
  rcases start with rfl | isAlpha
  · rfl
  · have bounds : (65 ≤ letter.toNat ∧ letter.toNat ≤ 90) ∨
        (97 ≤ letter.toNat ∧ letter.toNat ≤ 122) := by
      unfold Char.isAlpha Char.isUpper Char.isLower at isAlpha
      simpa [UInt32.le_iff_toNat_le] using isAlpha
    simp [Text.isWhiteSpace]
    omega

theorem exists_mem_letters_isWhiteSpace_eq_false (name : Name) :
    ∃ letter ∈ name.letters, Text.isWhiteSpace letter = false := by
  obtain ⟨letters, valid⟩ := name
  cases letters with
  | nil => cases valid
  | cons first others =>
    rw [isNameText, Bool.and_eq_true] at valid
    exact ⟨first, List.mem_cons_self, isWhiteSpace_eq_false_of_isNameStart valid.1⟩

/-- The tokens of a reference start with a name or a bracket, which is not blank. -/
theorem exists_tokens_eq_cons (type : TypeRef) :
    ∃ first others, type.tokens = first :: others ∧ ∀ text, Spells first text →
      ∃ letter ∈ text, Text.isWhiteSpace letter = false := by
  cases type with
  | named name required =>
    refine ⟨.name name, markTokens required, rfl, fun text spelled => ?_⟩
    obtain rfl : text = name.letters := spelled
    exact exists_mem_letters_isWhiteSpace_eq_false name
  | list item required =>
    refine ⟨.mark .openBracket, _, rfl, fun text spelled => ?_⟩
    obtain rfl : text = ['['] := spelled
    exact ⟨'[', List.mem_cons_self, rfl⟩

/-- A text that is read as a reference is not blank. -/
theorem isBlank_of_parse {type : TypeRef} {source : String} (read : parse source = .ok type) :
    Text.isBlank source = false := by
  have laid := parse_eq_ok_iff_laid.mp read
  obtain ⟨first, others, startsWith, visible⟩ := type.exists_tokens_eq_cons
  rw [startsWith] at laid
  rw [Text.isBlank, List.all_eq_false]
  generalize source.toList = letters at laid
  cases laid with
  | cons ignored spelled apart rest =>
    obtain ⟨letter, inText, notBlank⟩ := visible _ spelled
    refine ⟨letter, List.mem_append_right _ (List.mem_append_left _ inText), ?_⟩
    rw [notBlank]
    exact Bool.false_ne_true

/-- A type that is configured by a text is the one that is read from the text. -/
theorem resolve_written_of_parse {type : TypeRef} {source : String}
    (read : parse source = .ok type) (place : String) :
    ConfiguredType.resolve place (.written source) = .ok type := by
  rw [ConfiguredType.resolve, isBlank_of_parse read, if_neg Bool.false_ne_true, readFor, read]

/-- A type that is configured by its text is that type. -/
theorem resolve_written_text (type : TypeRef) (place : String) :
    ConfiguredType.resolve place (.written type.text) = .ok type :=
  resolve_written_of_parse type.parse_text place

/-- A text is read as a reference exactly where it consists of the tokens of the reference, with
ignored text around them. So no text is read in which brackets are out of balance or two marks
follow each other, the text of a reference is read as that reference, and to configure a type by
its text is to configure that type. -/
theorem parse_eq_ok_iff_spread (type : TypeRef) :
    (∀ source, parse source = .ok type ↔ Spread type.tokens source.toList) ∧
    (∀ source,
      ¬(IsBalanced 0 ((Grammar.tokens source.toList).map Placed.token) ∧
        ((Grammar.tokens source.toList).map Placed.token).IsChain NotBothMarks) →
      parse source ≠ .ok type) ∧
    parse type.text = .ok type ∧
    ∀ place, ConfiguredType.resolve place (.written type.text) = .ok type ∧
      ConfiguredType.resolve place (.settled type) = .ok type := by
  refine ⟨fun source => ?_, fun source disordered read => ?_, type.parse_text, fun place => ?_⟩
  · rw [parse_eq_ok_iff_laid]
    exact ⟨Laid.spread, fun spread => spread.laid type.isChain_mayTouch_tokens⟩
  · rw [(parse_eq_ok_iff_laid.mp read).tokens_eq] at disordered
    exact disordered ⟨type.isBalanced_tokens, type.isChain_notBothMarks_tokens⟩
  · exact ⟨type.resolve_written_text place, rfl⟩

end SchemaAssembly.TypeRef
