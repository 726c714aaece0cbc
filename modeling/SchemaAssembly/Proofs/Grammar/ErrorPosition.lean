/-
This file proves that the position of a syntax error is never behind the mistake. It lies between
two characters of the source, the message is about the character there, and the source up to there
can be completed to one that is accepted.

The readers work on tokens, and what stands in front of a token is a layout of the tokens before
it. A completion is written on a line of its own, so that a comment which is open does not swallow
it; only a text that breaks off is closed first.
-/

import SchemaAssembly.Proofs.Grammar.ArgumentList
import SchemaAssembly.Proofs.Grammar.ConstantText
import SchemaAssembly.Proofs.Grammar.TypeText
import SchemaAssembly.Proofs.Grammar.Viability

namespace SchemaAssembly

open Grammar

namespace Grammar

/-! ### What stands in front of a token -/

/-- The first token stands behind the ignored text. -/
theorem position_tokens (source : List Char) :
    position (tokens source) = skipIgnored false source := by
  unfold tokens
  split
  · next skipped => exact skipped.symm
  · next skipped => exact skipped.symm

theorem IsIgnored.append {first second after : List Char}
    (firstIgnored : IsIgnored (second ++ after) first) (secondIgnored : IsIgnored after second) :
    IsIgnored after (first ++ second) := by
  induction firstIgnored with
  | nil => exact secondIgnored
  | blank ignorable _ inductionHypothesis => exact .blank ignorable inductionHypothesis
  | comment inLine ends _ inductionHypothesis =>
    rw [List.cons_append, List.append_assoc]
    refine .comment inLine ?_ inductionHypothesis
    rwa [List.append_assoc]

/-- Ignored text may be put in front of what starts like the text that it stood in front of. -/
theorem Laid.behind_ignored {expected : List Token} {gap after behind : List Char}
    (laid : Laid expected behind) (ignored : IsIgnored after gap)
    (sameHead : ∀ letter ∈ behind.head?, letter ∈ after.head?) : Laid expected (gap ++ behind) := by
  have inFront := ignored.inFrontOf sameHead
  cases laid with
  | nil others =>
    rw [← List.append_nil behind] at inFront
    exact .nil (inFront.append others)
  | cons others spelled apart laid =>
    rw [← List.append_assoc]
    exact .cons (inFront.append others) spelled apart laid

theorem head?_append_of_head? {first second other : List Char}
    (sameHead : ∀ letter ∈ second.head?, letter ∈ other.head?) :
    ∀ letter ∈ (first ++ second).head?, letter ∈ (first ++ other).head? := by
  cases first with
  | nil => exact sameHead
  | cons letter rest => exact fun _ isFirst => isFirst

/-- What stands in front of some tokens is a layout of those before them, and goes on to be one
whatever stands behind it, if that starts with the same character. -/
theorem exists_front {source : List Char} {used rest : List Placed}
    (split : tokens source = used ++ rest)
    (readable : ∀ placed ∈ used, placed.token.IsReadable) :
    ∃ front, source = front ++ position rest ∧ ∀ {expected : List Token} {behind : List Char},
      Laid expected behind → (∀ letter ∈ behind.head?, letter ∈ (position rest).head?) →
        Laid (used.map Placed.token ++ expected) (front ++ behind) := by
  induction used generalizing source with
  | nil =>
    obtain ⟨body, gap, whole, ignored, noBody, -⟩ := exists_isIgnored_skipIgnored false source
    rw [noBody rfl, List.nil_append, ← position_tokens, split, List.nil_append] at whole
    rw [← position_tokens, split, List.nil_append] at ignored
    exact ⟨gap, whole, fun laid sameHead => laid.behind_ignored ignored sameHead⟩
  | cons first others inductionHypothesis =>
    obtain ⟨firstReadable, othersReadable⟩ := List.forall_mem_cons.mp readable
    obtain ⟨body, gap, whole, ignored, noBody, -⟩ := exists_isIgnored_skipIgnored false source
    rw [noBody rfl, List.nil_append] at whole
    cases skipped : skipIgnored false source with
    | nil => cases (tokens_of_skipIgnored_nil skipped).symm.trans split
    | cons letter behindLetter =>
      obtain ⟨rfl, othersSplit⟩ :=
        List.cons.inj ((tokens_of_skipIgnored_cons skipped).symm.trans split)
      have isNext : next letter behindLetter =
        ((next letter behindLetter).1, (next letter behindLetter).2) := rfl
      obtain ⟨text, isText, spelled, apart⟩ := next_spelled isNext firstReadable
      obtain ⟨front, after, goesOn⟩ := inductionHypothesis othersSplit othersReadable
      rw [skipped, isText] at whole ignored
      refine ⟨gap ++ (text ++ front), ?_, fun laid sameHead => ?_⟩
      · rw [whole, List.append_assoc, List.append_assoc, ← after]
      · rw [List.append_assoc, List.append_assoc]
        refine .cons (ignored.inFrontOf ?_) spelled (fun isWord => ?_) (goesOn laid sameHead)
        · rw [spelled.head?_append]
          exact fun _ isFirst => isFirst
        · have noWord := apart isWord
          rw [startsWord_iff, after] at noWord
          rw [startsWord_iff]
          exact fun letter isFirst => noWord letter (head?_append_of_head? sameHead letter isFirst)

/-! ### Texts that break off -/

/-- Each token has been read at the place where it stands. -/
theorem eq_next_of_mem_tokens {source : List Char} {placed : Placed}
    (member : placed ∈ tokens source) :
    ∃ first rest, placed = ⟨(next first rest).1, first :: rest⟩ := by
  fun_induction tokens source with
  | case1 => cases member
  | case2 source first rest skipped inductionHypothesis =>
    rcases List.mem_cons.mp member with rfl | inOthers
    · exact ⟨first, rest, rfl⟩
    · exact inductionHypothesis inOthers

/-- A text that breaks off starts with a quote. -/
theorem exists_of_next_brokenText {first : Char} {rest failure : List Char}
    (broken : (next first rest).1 = .brokenText failure) :
    first = '"' ∧ textBody rest = .error failure := by
  unfold next at broken
  split at broken
  · cases broken
  · split at broken
    · cases broken
    · split at broken
      · next isQuote =>
        split at broken
        · cases broken
        · next breaksOff =>
          cases broken
          exact ⟨beq_iff_eq.mp isQuote, breaksOff⟩
      · split at broken
        · next found =>
          obtain ⟨_, _, spelled, -⟩ := number?_eq_some found
          obtain rfl : _ = Token.brokenText failure := broken
          exact spelled.elim
        · cases broken

/-- A text that breaks off can be closed there. -/
theorem exists_literal_of_textBody_error {body failure : List Char}
    (broken : textBody body = .error failure) :
    ∃ written content, body = written ++ failure ∧
      Spells (.text content) ('"' :: (written ++ ['"'])) := by
  obtain ⟨parts, areRead, split, -⟩ := textBody_eq_error_iff.mp broken
  refine ⟨LiteralPart.text parts, String.ofList (LiteralPart.content parts), split, _, rfl, ?_⟩
  rw [String.toList_ofList]
  exact textBody_eq_ok_iff.mpr ⟨parts, areRead, rfl, rfl⟩

/-! ### Completed sources -/

/-- Where a reader stops, what stands before can be completed to a layout of a phrase. -/
theorem StopsAt.exists_laid {isPhrase : List Token → Prop} {source stop : List Char}
    (stops : StopsAt isPhrase (tokens source) stop)
    (readable : ∀ phrase, isPhrase phrase → ∀ token ∈ phrase, token.IsReadable) :
    ∃ front, source = front ++ stop ∧
      ∃ extension phrase, isPhrase phrase ∧ Laid phrase (front ++ extension) := by
  have usedReadable {used : List Placed} {ending : List Token}
      (phrase : isPhrase (used.map Placed.token ++ ending)) :
      ∀ placed ∈ used, placed.token.IsReadable := fun placed member =>
    readable _ phrase _ (List.mem_append_left ending (List.mem_map_of_mem member))
  cases stops with
  | before split viable =>
    obtain ⟨ending, ⟨line, laidEnding⟩, phrase⟩ := viable
    obtain ⟨front, whole, goesOn⟩ := exists_front split (usedReadable phrase)
    have laid := goesOn (.nil .nil) fun _ isFirst => absurd isFirst (Option.not_mem_none _)
    rw [List.append_nil, List.append_nil] at laid
    exact ⟨front, whole, '\n' :: line, _, phrase, laid.append_line laidEnding⟩
  | @within used rest _ literal split viable =>
    have member : ⟨.brokenText stop, literal⟩ ∈ tokens source := by
      rw [split]
      exact List.mem_append_right _ List.mem_cons_self
    obtain ⟨first, body, isNext⟩ := eq_next_of_mem_tokens member
    obtain ⟨isBroken, rfl⟩ := Placed.mk.inj isNext
    obtain ⟨rfl, breaksOff⟩ := exists_of_next_brokenText isBroken.symm
    obtain ⟨written, content, rfl, spelled⟩ := exists_literal_of_textBody_error breaksOff
    obtain ⟨ending, ⟨line, laidEnding⟩, phrase⟩ := viable content
    have ofUsed := phrase
    rw [List.append_assoc] at ofUsed
    obtain ⟨front, whole, goesOn⟩ := exists_front split (usedReadable ofUsed)
    have laid := goesOn (LaidBare.token spelled).laid fun _ isFirst => isFirst
    refine ⟨front ++ '"' :: written, ?_, '"' :: '\n' :: line, _, phrase, ?_⟩
    · rw [whole, position, List.append_assoc, List.cons_append]
    · have completed := laid.append_line laidEnding
      simpa only [List.append_assoc, List.cons_append, List.nil_append] using completed

end Grammar

/-! ### Errors -/

/-- The bytes of some characters are those of the text that they make up. -/
theorem Text.byteCount_eq_utf8ByteSize (letters : List Char) :
    byteCount letters = (String.ofList letters).utf8ByteSize := by
  induction letters with
  | nil => rfl
  | cons letter rest inductionHypothesis =>
    rw [String.ofList_cons, String.utf8ByteSize_append, String.utf8ByteSize_singleton,
      ← inductionHypothesis, byteCount]

namespace SyntaxError

/-- An error splits a source in two: its position is the number of bytes in front, so it lies
between two characters and is the length of the source only at the end. The message is about the
character behind it, or the end, and what stands in front can be completed to a text that is
accepted. -/
structure Separates {Value : Type} (error : SyntaxError)
    (parse : String → Except SyntaxError Value) (front rest : String) : Prop where
  isOffset : error.offset = front.utf8ByteSize
  inSource : error.offset ≤ (front ++ rest).utf8ByteSize
  atEnd : error.offset = (front ++ rest).utf8ByteSize ↔ rest = ""
  isMessage : error.message = match rest.toList with
    | [] => "unexpected end of input"
    | letter :: _ => "unexpected \"" ++ String.singleton letter ++ "\""
  completed : ∃ extension value, parse (front ++ extension) = .ok value

/-- The position of an error is not behind the first mistake of the source. -/
def IsSoundFor {Value : Type} (error : SyntaxError) (parse : String → Except SyntaxError Value)
    (source : String) : Prop :=
  ∃ front rest, source = front ++ rest ∧ error.Separates parse front rest

/-- Every phrase of the given kind is accepted wherever it is laid out. -/
def Accepts {Value : Type} (parse : String → Except SyntaxError Value)
    (isPhrase : List Token → Prop) : Prop :=
  ∀ phrase, isPhrase phrase → (∀ token ∈ phrase, token.IsReadable) ∧
    ∀ source : String, Laid phrase source.toList → ∃ value, parse source = .ok value

/-- An error where a reader stops is sound for a parser that accepts what the reader reads. -/
theorem Accepts.isSoundFor_of_stopsAt {Value : Type} {parse : String → Except SyntaxError Value}
    {isPhrase : List Token → Prop} (accepts : Accepts parse isPhrase) {source : String}
    {stop : List Char} (stops : StopsAt isPhrase (tokens source.toList) stop) :
    (before source.toList stop).IsSoundFor parse source := by
  obtain ⟨front, split, extension, phrase, isPhrase, laid⟩ :=
    stops.exists_laid fun phrase isPhrase => (accepts phrase isPhrase).1
  have whole : source = String.ofList front ++ String.ofList stop := by
    rw [← String.ofList_append, ← split, String.ofList_toList]
  have isOffset : (before source.toList stop).offset = (String.ofList front).utf8ByteSize := by
    rw [before, split, Text.byteCount_append, Nat.add_sub_cancel, Text.byteCount_eq_utf8ByteSize]
  refine ⟨_, _, whole, isOffset, ?_, ?_, ?_, String.ofList extension, ?_⟩
  · rw [isOffset, String.utf8ByteSize_append]
    exact Nat.le_add_right _ _
  · rw [isOffset, String.utf8ByteSize_append, Nat.left_eq_add, String.utf8ByteSize_eq_zero_iff]
  · rw [String.toList_ofList, message, before]
    cases stop <;> rfl
  · refine (accepts phrase isPhrase).2 _ ?_
    rwa [← String.ofList_append, String.toList_ofList]

/-- An error behind a phrase that has been read is sound, for the source could end there. -/
theorem Accepts.isSoundFor_of_uses {Value : Type} {parse : String → Except SyntaxError Value}
    {isPhrase : List Token → Prop} (accepts : Accepts parse isPhrase) {source : String}
    {phrase : List Token} {rest : List Placed} (uses : Uses (tokens source.toList) phrase rest)
    (isWhole : isPhrase phrase) :
    (before source.toList (position rest)).IsSoundFor parse source :=
  accepts.isSoundFor_of_stopsAt (uses.stopsAt (isViable_of_isPhrase isWhole))

end SyntaxError

/-! ### The parsers -/

theorem Constant.accepts : SyntaxError.Accepts parse IsConstant := by
  rintro _ ⟨constant, writable, rfl⟩
  exact ⟨constant.isReadable_tokens, fun source laid =>
    ⟨constant, parse_eq_ok_iff_laid.mpr ⟨writable, laid⟩⟩⟩

theorem TypeRef.accepts : SyntaxError.Accepts parse IsType := by
  rintro _ ⟨type, rfl⟩
  exact ⟨type.isReadable_tokens, fun source laid => ⟨type, parse_eq_ok_iff_laid.mpr laid⟩⟩

theorem InlineArgument.accepts : SyntaxError.Accepts parseAll IsArgumentList := by
  rintro _ ⟨arguments, nonempty, writable, rfl⟩
  exact ⟨isReadable_flatMap_tokens arguments, fun source laid =>
    ⟨arguments, parseAll_eq_ok_iff_laid.mpr ⟨nonempty, writable, laid⟩⟩⟩

theorem Signature.accepts : SyntaxError.Accepts parse IsSignature := by
  rintro _ ⟨signature, writable, rfl⟩
  exact ⟨signature.isReadable_tokens, fun source laid =>
    ⟨signature, parse_eq_ok_iff_laid.mpr ⟨writable, laid⟩⟩⟩

theorem Constant.isSoundFor_of_parse {source : String} {error : SyntaxError}
    (failed : parse source = .error error) : error.IsSoundFor parse source := by
  unfold parse at failed
  dsimp only at failed
  split at failed
  · cases failed
  · next constant rest _ read =>
    cases failed
    obtain ⟨writable, uses⟩ := readConstant_eq_ok_iff.mp read
    exact accepts.isSoundFor_of_uses uses ⟨constant, writable, rfl⟩
  · next read =>
    cases failed
    exact accepts.isSoundFor_of_stopsAt (stopsAt_of_readConstant read)

theorem TypeRef.isSoundFor_of_parse {source : String} {error : SyntaxError}
    (failed : parse source = .error error) : error.IsSoundFor parse source := by
  unfold parse at failed
  dsimp only at failed
  split at failed
  · cases failed
  · next type rest _ read =>
    cases failed
    obtain ⟨uses, -⟩ := readType_eq_read_iff.mp read
    exact accepts.isSoundFor_of_uses uses ⟨type, rfl⟩
  · next read =>
    cases failed
    exact accepts.isSoundFor_of_stopsAt (stopsAt_of_readType (Or.inl read))
  · next read =>
    cases failed
    exact accepts.isSoundFor_of_stopsAt (stopsAt_of_readType (Or.inr read))

theorem InlineArgument.isSoundFor_of_parseAll {source : String} {error : SyntaxError}
    (failed : parseAll source = .error error) : error.IsSoundFor parseAll source := by
  unfold parseAll at failed
  dsimp only at failed
  split at failed
  · cases failed
  · next arguments rest _ read =>
    cases failed
    obtain ⟨nonempty, readAll⟩ := readArguments_eq_ok_iff.mp read
    obtain ⟨writable, uses⟩ := readFurther_eq_ok readAll
    exact accepts.isSoundFor_of_uses uses ⟨arguments, nonempty, writable, rfl⟩
  · next read =>
    cases failed
    exact accepts.isSoundFor_of_stopsAt (stopsAt_of_readArguments read)

theorem Signature.isSoundFor_of_parse {source : String} {error : SyntaxError}
    (failed : parse source = .error error) : error.IsSoundFor parse source := by
  unfold parse at failed
  dsimp only at failed
  split at failed
  · cases failed
  · next signature rest _ read =>
    cases failed
    obtain ⟨writable, uses⟩ := readSignature_eq_ok read
    exact accepts.isSoundFor_of_uses uses ⟨signature, writable, rfl⟩
  · next read =>
    cases failed
    exact accepts.isSoundFor_of_stopsAt (stopsAt_of_readSignature read)

/-- Whatever a text is read as, an error is reported no later than at the first mistake. -/
theorem SyntaxError.isSoundFor_of_failure (source : String) (error : SyntaxError) :
    (Signature.parse source = .error error → error.IsSoundFor Signature.parse source) ∧
    (InlineArgument.parseAll source = .error error →
      error.IsSoundFor InlineArgument.parseAll source) ∧
    (TypeRef.parse source = .error error → error.IsSoundFor TypeRef.parse source) ∧
    (Constant.parse source = .error error → error.IsSoundFor Constant.parse source) :=
  ⟨Signature.isSoundFor_of_parse, InlineArgument.isSoundFor_of_parseAll,
    TypeRef.isSoundFor_of_parse, Constant.isSoundFor_of_parse⟩

/-- Errors in front of a token, at a character that starts none, at the end, which a comment hides,
and within a text. -/
theorem SyntaxError.isSoundFor_of_unclosed_brackets :
    (Signature.parse "posts(limit: [Int)" = .error ⟨17, some ')'⟩ ∧
      IsSoundFor ⟨17, some ')'⟩ Signature.parse "posts(limit: [Int)") ∧
    (InlineArgument.parseAll "limit: Int = [1, é]" = .error ⟨17, some 'é'⟩ ∧
      IsSoundFor ⟨17, some 'é'⟩ InlineArgument.parseAll "limit: Int = [1, é]") ∧
    (TypeRef.parse "[Int # ]" = .error ⟨8, none⟩ ∧
      IsSoundFor ⟨8, none⟩ TypeRef.parse "[Int # ]") ∧
    (Constant.parse "\x7btitles: [\"é\\q" = .error ⟨13, some '\\'⟩ ∧
      IsSoundFor ⟨13, some '\\'⟩ Constant.parse "\x7btitles: [\"é\\q") := by
  have ofField : Signature.parse "posts(limit: [Int)" = .error ⟨17, some ')'⟩ := by
    with_unfolding_all rfl
  have ofArguments : InlineArgument.parseAll "limit: Int = [1, é]" = .error ⟨17, some 'é'⟩ := by
    with_unfolding_all rfl
  have ofType : TypeRef.parse "[Int # ]" = .error ⟨8, none⟩ := by
    with_unfolding_all rfl
  have ofConstant : Constant.parse "\x7btitles: [\"é\\q" = .error ⟨13, some '\\'⟩ := by
    with_unfolding_all rfl
  exact ⟨⟨ofField, (isSoundFor_of_failure _ _).1 ofField⟩,
    ⟨ofArguments, (isSoundFor_of_failure _ _).2.1 ofArguments⟩,
    ⟨ofType, (isSoundFor_of_failure _ _).2.2.1 ofType⟩,
    ofConstant, (isSoundFor_of_failure _ _).2.2.2 ofConstant⟩

end SchemaAssembly
