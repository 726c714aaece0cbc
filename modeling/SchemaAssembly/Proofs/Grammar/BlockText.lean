/-
This file settles when a source with block strings is misread. Each block string is taken for three
texts. Where one value is expected and no more, as the whole source, as the value of a member or as
a default, two texts in a row are refused; so is the source, whatever follows. In a list the three
texts are three items, so a source whose block strings are all items of lists is accepted, but as
another value than it has.
-/

import SchemaAssembly.Proofs.Grammar.AdjacentTexts
import SchemaAssembly.Proofs.Grammar.BlockLayout

namespace SchemaAssembly

open Grammar

namespace Grammar

/-! ### Sources that are refused -/

/-- What starts with a quote is a text or breaks off. -/
theorem exists_text_of_isReadable {rest : List Char} (readable : (next '"' rest).1.IsReadable) :
    ∃ content, (next '"' rest).1 = .text content := by
  have notMark : mark? '"' = none := rfl
  unfold next at readable ⊢
  rw [notMark] at readable ⊢
  dsimp only at readable ⊢
  rw [dif_neg (by decide), if_pos (beq_self_eq_true '"')] at readable ⊢
  cases body : textBody rest with
  | ok read => exact ⟨_, rfl⟩
  | error failure =>
    rw [body] at readable
    exact readable.elim

/-- Three quotes are an empty text and the start of another token. -/
theorem map_tokens_quotes (behind : List Char) :
    ∃ others, (tokens ('"' :: '"' :: '"' :: behind)).map Placed.token =
      .text "" :: (next '"' behind).1 :: others := by
  have first : skipIgnored false ('"' :: '"' :: '"' :: behind) = '"' :: '"' :: '"' :: behind := rfl
  have second : skipIgnored false ('"' :: behind) = '"' :: behind := rfl
  have empty : next '"' ('"' :: '"' :: behind) = (.text "", '"' :: behind) := rfl
  rw [tokens_of_skipIgnored_cons first, empty, tokens_of_skipIgnored_cons second]
  exact ⟨_, rfl⟩

/-- Where one value may stand by what is meant, one may stand by what is read. -/
theorem takesOneValue_flatMap {before : List Word}
    (takesOne : TakesOneValue (before.map Word.meant)) :
    TakesOneValue (before.flatMap Word.asRead) := by
  rcases before.eq_nil_or_concat with rfl | ⟨front, last, rfl⟩
  · exact takesOneValue_nil
  · rw [List.concat_eq_append] at takesOne ⊢
    rw [List.map_append, List.map_singleton, takesOneValue_concat_iff] at takesOne
    rw [List.flatMap_append, List.flatMap_singleton]
    cases last with
    | plain token => exact takesOneValue_concat_iff.mpr takesOne
    | block written => rcases takesOne with isText | isText <;> cases isText

/-- Three quotes in place of one value are two texts in a row, or break off. -/
theorem not_keepsTextsApart_of_quotes {before : List Word} {behind source : List Char}
    (laid : LaidWords ('"' :: '"' :: '"' :: behind) before source)
    (takesOne : TakesOneValue (before.map Word.meant))
    (readable : ∀ token ∈ (tokens source).map Placed.token, token.IsReadable) :
    ¬KeepsTextsApart ((tokens source).map Placed.token) := by
  intro keepsApart
  have quoted : ∀ letter ∈ ('"' :: '"' :: '"' :: behind).head?, letter = '"' := by
    rintro _ ⟨⟩
    rfl
  obtain ⟨others, quotes⟩ := map_tokens_quotes behind
  rw [laid.map_tokens quoted, quotes] at readable keepsApart
  have member : (next '"' behind).1 ∈
      before.flatMap Word.asRead ++ .text "" :: (next '"' behind).1 :: others :=
    List.mem_append_right _ (List.mem_cons_of_mem _ List.mem_cons_self)
  obtain ⟨content, isText⟩ := exists_text_of_isReadable (readable _ member)
  rw [isText] at keepsApart
  exact keepsApart _ _ _ _ rfl (takesOneValue_flatMap takesOne)

end Grammar

/-- A source in which three quotes stand in place of one value is refused. -/
theorem Constant.parse_of_quotes {before : List Word} {behind : List Char} {source : String}
    (laid : LaidWords ('"' :: '"' :: '"' :: behind) before source.toList)
    (takesOne : TakesOneValue (before.map Word.meant)) (constant : Constant) :
    parse source ≠ .ok constant := by
  intro read
  rw [parse_eq_ok_iff_readConstant, readConstant_eq_ok_iff, uses_all_iff] at read
  obtain ⟨writable, same⟩ := read
  refine not_keepsTextsApart_of_quotes laid takesOne ?_ ?_
  · rw [same]
    exact constant.isReadable_tokens
  · rw [same]
    exact keepsTextsApart_of_isWritable writable

theorem Signature.parse_of_quotes {before : List Word} {behind : List Char} {source : String}
    (laid : LaidWords ('"' :: '"' :: '"' :: behind) before source.toList)
    (takesOne : TakesOneValue (before.map Word.meant)) (signature : Signature) :
    parse source ≠ .ok signature := by
  intro read
  rw [parse_eq_ok_iff_readSignature, readSignature_eq_ok_iff] at read
  obtain ⟨writable, same⟩ := read
  refine not_keepsTextsApart_of_quotes laid takesOne ?_ ?_
  · rw [same]
    exact signature.isReadable_tokens
  · rw [same]
    exact keepsTextsApart_signature writable

namespace Grammar

/-! ### Block strings in lists -/

/-- Behind the words in front, no block string among these stands where one value may and no more:
each of them is the item of a list. -/
def AreItems (front words : List Word) : Prop :=
  ∀ before block after, words = before ++ .block block :: after →
    ¬TakesOneValue ((front ++ before).map Word.meant)

/-- If block strings are items, those of a first and of a second part are. -/
theorem AreItems.of_append {front first second : List Word}
    (areItems : AreItems front (first ++ second)) :
    AreItems front first ∧ AreItems (front ++ first) second := by
  constructor
  · rintro before block after rfl
    exact areItems before block (after ++ second) (List.append_assoc _ _ _)
  · rintro before block after rfl
    rw [List.append_assoc]
    exact areItems (first ++ before) block after (List.append_assoc _ _ _).symm

theorem AreItems.of_cons {front words : List Word} {first : Word}
    (areItems : AreItems front (first :: words)) : AreItems (front ++ [first]) words :=
  (AreItems.of_append (areItems : AreItems front ([first] ++ words))).2

/-- In place of one value there is no block string on its own. -/
theorem AreItems.ne_block {front words : List Word} (areItems : AreItems front words)
    (takesOne : TakesOneValue (front.map Word.meant)) (block : BlockText) :
    words ≠ [.block block] := by
  intro isBlock
  refine areItems [] block [] isBlock ?_
  rwa [List.append_nil]

theorem takesOneValue_behind (front : List Word) {separator : Token}
    (separates : separator = .mark .colon ∨ separator = .mark .equals) :
    TakesOneValue ((front ++ [Word.plain separator]).map Word.meant) := by
  rw [List.map_append]
  exact takesOneValue_concat_iff.mpr separates

/-- A word with which no text is meant is plain. -/
theorem Word.eq_plain_of_meant {word : Word} {token : Token} (isToken : word.meant = token)
    (noText : ∀ content, token ≠ .text content) : word = .plain token := by
  cases word with
  | plain other => rw [← isToken, Word.meant]
  | block written => exact absurd isToken.symm (noText _)

/-- What stands between two marks is written between them. -/
theorem exists_between {words : List Word} {opening closing : Mark} {inside : List Token}
    (same : words.map Word.meant = .mark opening :: (inside ++ [.mark closing])) :
    ∃ between, words = .plain (.mark opening) :: (between ++ [.plain (.mark closing)]) ∧
      between.map Word.meant = inside := by
  obtain ⟨first, others, rfl, isOpening, sameOthers⟩ := List.map_eq_cons_iff.mp same
  obtain ⟨between, last, rfl, sameInside, isLast⟩ := List.map_eq_append_iff.mp sameOthers
  obtain ⟨final, rfl, isClosing⟩ := List.map_eq_singleton_iff.mp isLast
  obtain rfl := Word.eq_plain_of_meant isOpening nofun
  obtain rfl := Word.eq_plain_of_meant isClosing nofun
  exact ⟨between, rfl, sameInside⟩

theorem flatMap_asRead_between (opening closing : Mark) (between : List Word) :
    (Word.plain (.mark opening) :: (between ++ [.plain (.mark closing)])).flatMap Word.asRead =
      .mark opening :: (between.flatMap Word.asRead ++ [.mark closing]) := by
  rw [List.flatMap_cons, List.flatMap_append, List.flatMap_singleton]
  rfl

/-- What has a label is written behind this label and a colon. -/
theorem exists_labelled {words : List Word} {name : Name} {rest : List Token}
    (same : words.map Word.meant = .name name :: .mark .colon :: rest) :
    ∃ others, words = .plain (.name name) :: .plain (.mark .colon) :: others ∧
      others.map Word.meant = rest := by
  obtain ⟨label, afterLabel, rfl, isLabel, sameColon⟩ := List.map_eq_cons_iff.mp same
  obtain ⟨colon, others, rfl, isColon, sameOthers⟩ := List.map_eq_cons_iff.mp sameColon
  obtain rfl := Word.eq_plain_of_meant isLabel nofun
  obtain rfl := Word.eq_plain_of_meant isColon nofun
  exact ⟨others, rfl, sameOthers⟩

theorem flatMap_asRead_labelled (name : Name) (others : List Word) :
    (Word.plain (.name name) :: .plain (.mark .colon) :: others).flatMap Word.asRead =
      .name name :: .mark .colon :: others.flatMap Word.asRead := by
  rw [List.flatMap_cons, List.flatMap_cons]
  rfl

/-- A constant that is one token is written as itself, unless as a block string. -/
theorem exists_constant_of_singleton {constant : Constant} {token : Token} {words : List Word}
    (isSingle : constant.tokens = [token]) (writable : constant.IsWritable)
    (same : words.map Word.meant = constant.tokens) (notBlock : ∀ block, words ≠ [.block block]) :
    ∃ other : Constant, other.IsWritable ∧ other.tokens = words.flatMap Word.asRead := by
  refine ⟨constant, writable, ?_⟩
  rw [isSingle] at same
  obtain ⟨word, rfl, rfl⟩ := List.map_eq_singleton_iff.mp same
  cases word with
  | plain token => exact isSingle
  | block written => exact absurd rfl (notBlock written)

mutual

/-- A constant with block strings in its lists only can be read, with three items for each. -/
theorem exists_constant (constant : Constant) {front words : List Word}
    (writable : constant.IsWritable) (same : words.map Word.meant = constant.tokens)
    (areItems : AreItems front words) (notBlock : ∀ block, words ≠ [.block block]) :
    ∃ other : Constant, other.IsWritable ∧ other.tokens = words.flatMap Word.asRead := by
  cases constant with
  | list items =>
    obtain ⟨between, rfl, sameItems⟩ := exists_between same
    obtain ⟨others, othersWritable, othersSame⟩ :=
      exists_items items writable sameItems areItems.of_cons.of_append.1
    refine ⟨.list others, othersWritable, ?_⟩
    rw [Constant.tokens, othersSame, flatMap_asRead_between]
  | object members =>
    obtain ⟨between, rfl, sameMembers⟩ := exists_between same
    obtain ⟨others, othersWritable, othersSame⟩ :=
      exists_members members writable sameMembers areItems.of_cons.of_append.1
    refine ⟨.object others, othersWritable, ?_⟩
    rw [Constant.tokens, othersSame, flatMap_asRead_between]
  | boolean value => cases value <;> exact exists_constant_of_singleton rfl writable same notBlock
  | _ => exact exists_constant_of_singleton rfl writable same notBlock

/-- The items of a list are read as other items, with three texts for each block string among
them. -/
theorem exists_items (items : List Constant) {front words : List Word}
    (writable : Constant.ItemsAreWritable items)
    (same : words.map Word.meant = Constant.itemTokens items) (areItems : AreItems front words) :
    ∃ others : List Constant, Constant.ItemsAreWritable others ∧
      Constant.itemTokens others = words.flatMap Word.asRead := by
  cases items with
  | nil =>
    obtain rfl := List.map_eq_nil_iff.mp same
    exact ⟨[], trivial, rfl⟩
  | cons head rest =>
    obtain ⟨headWritable, restWritable⟩ := writable
    obtain ⟨first, second, rfl, sameHead, sameRest⟩ := List.map_eq_append_iff.mp same
    obtain ⟨firstItems, secondItems⟩ := areItems.of_append
    obtain ⟨others, othersWritable, othersSame⟩ :=
      exists_items rest restWritable sameRest secondItems
    by_cases isBlock : ∃ block, first = [.block block]
    · obtain ⟨block, rfl⟩ := isBlock
      refine ⟨.text "" :: .text (String.ofList block.content) :: .text "" :: others,
        ⟨trivial, trivial, trivial, othersWritable⟩, ?_⟩
      rw [List.flatMap_append, ← othersSame]
      rfl
    · obtain ⟨other, otherWritable, otherSame⟩ := exists_constant head headWritable sameHead
        firstItems fun block isSingle => isBlock ⟨block, isSingle⟩
      refine ⟨other :: others, ⟨otherWritable, othersWritable⟩, ?_⟩
      rw [Constant.itemTokens, otherSame, othersSame, List.flatMap_append]

theorem exists_members (members : List (Name × Constant)) {front words : List Word}
    (writable : Constant.MembersAreWritable members)
    (same : words.map Word.meant = Constant.memberTokens members)
    (areItems : AreItems front words) :
    ∃ others : List (Name × Constant), Constant.MembersAreWritable others ∧
      Constant.memberTokens others = words.flatMap Word.asRead := by
  match members with
  | [] =>
    obtain rfl := List.map_eq_nil_iff.mp same
    exact ⟨[], trivial, rfl⟩
  | (name, head) :: rest =>
    obtain ⟨headWritable, restWritable⟩ := writable
    obtain ⟨value, rfl, sameValue⟩ := exists_labelled same
    obtain ⟨first, second, rfl, sameHead, sameRest⟩ := List.map_eq_append_iff.mp sameValue
    obtain ⟨firstItems, secondItems⟩ := areItems.of_cons.of_cons.of_append
    obtain ⟨other, otherWritable, otherSame⟩ := exists_constant head headWritable sameHead
      firstItems (firstItems.ne_block (takesOneValue_behind _ (Or.inl rfl)))
    obtain ⟨others, othersWritable, othersSame⟩ :=
      exists_members rest restWritable sameRest secondItems
    refine ⟨(name, other) :: others, ⟨otherWritable, othersWritable⟩, ?_⟩
    rw [Constant.memberTokens, otherSame, othersSame, flatMap_asRead_labelled, List.flatMap_append]

end

theorem flatMap_asRead_of_noTexts {words : List Word}
    (noTexts : ∀ content, .text content ∉ words.map Word.meant) :
    words.flatMap Word.asRead = words.map Word.meant := by
  induction words with
  | nil => rfl
  | cons first others inductionHypothesis =>
    have othersNoTexts : ∀ content, .text content ∉ others.map Word.meant := fun content member =>
      noTexts content (List.mem_cons_of_mem _ member)
    rw [List.flatMap_cons, List.map_cons, inductionHypothesis othersNoTexts]
    cases first with
    | plain token => rfl
    | block written => exact absurd List.mem_cons_self (noTexts _)

theorem exists_argument (argument : InlineArgument) {front words : List Word}
    (writable : argument.IsWritable) (same : words.map Word.meant = argument.tokens)
    (areItems : AreItems front words) :
    ∃ other : InlineArgument, other.IsWritable ∧ other.tokens = words.flatMap Word.asRead := by
  obtain ⟨name, type, default?⟩ := argument
  obtain ⟨typeAndDefault, rfl, sameType⟩ := exists_labelled same
  obtain ⟨first, second, rfl, isType, isDefault⟩ := List.map_eq_append_iff.mp sameType
  have typeRead : first.flatMap Word.asRead = type.tokens := by
    rw [← isType]
    refine flatMap_asRead_of_noTexts fun content => ?_
    rw [isType]
    exact text_notMem_tokens type content
  have secondItems := areItems.of_cons.of_cons.of_append.2
  have wholeRead (other? : Option Constant)
      (read : second.flatMap Word.asRead = InlineArgument.defaultTokens other?) :
      InlineArgument.tokens ⟨name, type, other?⟩ =
        (.plain (.name name) :: .plain (.mark .colon) :: (first ++ second)).flatMap
          Word.asRead := by
    rw [InlineArgument.tokens, ← typeRead, ← read, flatMap_asRead_labelled, List.flatMap_append]
  cases default? with
  | none =>
    obtain rfl := List.map_eq_nil_iff.mp isDefault
    exact ⟨⟨name, type, none⟩, nofun, wholeRead none rfl⟩
  | some constant =>
    obtain ⟨equals, value, rfl, isEquals, isValue⟩ := List.map_eq_cons_iff.mp isDefault
    obtain rfl := Word.eq_plain_of_meant isEquals nofun
    obtain ⟨other, otherWritable, otherSame⟩ := exists_constant constant (writable constant rfl)
      isValue secondItems.of_cons
      (secondItems.of_cons.ne_block (takesOneValue_behind _ (Or.inr rfl)))
    refine ⟨⟨name, type, some other⟩, ?_, wholeRead (some other) ?_⟩
    · rintro _ ⟨⟩
      exact otherWritable
    · rw [InlineArgument.defaultTokens, otherSame]
      rfl

theorem exists_arguments (arguments : List InlineArgument) {front words : List Word}
    (writable : ∀ argument ∈ arguments, argument.IsWritable)
    (same : words.map Word.meant = arguments.flatMap InlineArgument.tokens)
    (areItems : AreItems front words) :
    ∃ others : List InlineArgument, others.length = arguments.length ∧
      (∀ argument ∈ others, argument.IsWritable) ∧
      others.flatMap InlineArgument.tokens = words.flatMap Word.asRead := by
  induction arguments generalizing front words with
  | nil =>
    obtain rfl := List.map_eq_nil_iff.mp same
    exact ⟨[], rfl, List.forall_mem_nil _, rfl⟩
  | cons head rest inductionHypothesis =>
    obtain ⟨headWritable, restWritable⟩ := List.forall_mem_cons.mp writable
    rw [List.flatMap_cons] at same
    obtain ⟨first, second, rfl, sameHead, sameRest⟩ := List.map_eq_append_iff.mp same
    obtain ⟨firstItems, secondItems⟩ := areItems.of_append
    obtain ⟨other, otherWritable, otherSame⟩ :=
      exists_argument head headWritable sameHead firstItems
    obtain ⟨others, sameLength, othersWritable, othersSame⟩ :=
      inductionHypothesis restWritable sameRest secondItems
    refine ⟨other :: others, congrArg (· + 1) sameLength,
      List.forall_mem_cons.mpr ⟨otherWritable, othersWritable⟩, ?_⟩
    rw [List.flatMap_cons, otherSame, othersSame, List.flatMap_append]

/-- A field whose block strings are items is read as another field. -/
theorem exists_signature (signature : Signature) {words : List Word}
    (writable : signature.IsWritable) (same : words.map Word.meant = signature.tokens)
    (areItems : AreItems [] words) :
    ∃ other : Signature, other.IsWritable ∧ other.tokens = words.flatMap Word.asRead := by
  obtain ⟨name, arguments⟩ := signature
  obtain ⟨label, afterLabel, rfl, isLabel, sameArguments⟩ := List.map_eq_cons_iff.mp same
  obtain rfl := Word.eq_plain_of_meant isLabel nofun
  cases arguments with
  | nil =>
    obtain rfl := List.map_eq_nil_iff.mp sameArguments
    exact ⟨⟨name, []⟩, List.forall_mem_nil _, rfl⟩
  | cons first others =>
    obtain ⟨between, rfl, sameList⟩ := exists_between sameArguments
    obtain ⟨read, sameLength, readWritable, readSame⟩ := exists_arguments (first :: others)
      writable sameList areItems.of_cons.of_cons.of_append.1
    refine ⟨⟨name, read⟩, readWritable, ?_⟩
    cases read with
    | nil => cases sameLength
    | cons firstRead othersRead =>
      rw [Signature.tokens, Signature.argumentTokens, readSame, List.flatMap_cons,
        flatMap_asRead_between]
      rfl

/-! ### Misreading -/

/-- Some block string stands where one value may and no more. -/
def HasLoneBlock (words : List Word) : Prop :=
  ∃ before block after, words = before ++ .block block :: after ∧
    TakesOneValue (before.map Word.meant)

/-- A source is accepted as what it means, or refused. -/
def NeverMisread {Value : Type} (parse : String → Except SyntaxError Value) (source : String)
    (meaning : Value) : Prop :=
  ∀ value, parse source = .ok value → value = meaning

theorem areItems_of_not_hasLoneBlock {words : List Word} (noLone : ¬HasLoneBlock words) :
    AreItems [] words := by
  intro before block after split takesOne
  exact noLone ⟨before, block, after, split, takesOne⟩

theorem length_le_length_flatMap_asRead (words : List Word) :
    words.length ≤ (words.flatMap Word.asRead).length := by
  induction words with
  | nil => exact Nat.le_refl _
  | cons first others inductionHypothesis =>
    have atLeastOne : 1 ≤ first.asRead.length := by
      cases first <;> simp [Word.asRead]
    rw [List.flatMap_cons, List.length_append, List.length_cons]
    omega

/-- There are more texts than meant where there is a block string. -/
theorem map_meant_ne_flatMap_asRead {words : List Word} {block : BlockText}
    (member : .block block ∈ words) : words.map Word.meant ≠ words.flatMap Word.asRead := by
  obtain ⟨before, after, rfl⟩ := List.append_of_mem member
  intro same
  have sameLength := congrArg List.length same
  have inFront := length_le_length_flatMap_asRead before
  have behind := length_le_length_flatMap_asRead after
  rw [List.length_map, List.flatMap_append, List.flatMap_cons, List.length_append,
    List.length_append, List.length_append, List.length_cons, Word.asRead, List.length_cons,
    List.length_cons, List.length_singleton] at sameLength
  omega

/-- A source with block strings is never misread if one of them stands in place of one value, as it
is refused then. Else it is accepted with more texts than are meant. -/
theorem neverMisread_iff_hasLoneBlock {Value : Type} {parse : String → Except SyntaxError Value}
    {tokensOf : Value → List Token} {words : List Word} {source : String} {meaning : Value}
    {block : BlockText} (member : .block block ∈ words)
    (same : words.map Word.meant = tokensOf meaning)
    (refused : HasLoneBlock words → ∀ value, parse source ≠ .ok value)
    (accepted : AreItems [] words →
      ∃ value, parse source = .ok value ∧ tokensOf value = words.flatMap Word.asRead) :
    NeverMisread parse source meaning ↔ HasLoneBlock words := by
  constructor
  · intro never
    refine Classical.byContradiction fun noLone => ?_
    obtain ⟨value, read, isRead⟩ := accepted (areItems_of_not_hasLoneBlock noLone)
    obtain rfl := never value read
    exact map_meant_ne_flatMap_asRead member (same.trans isRead)
  · intro lone value read
    exact absurd read (refused lone value)

end Grammar

namespace Constant

theorem parse_of_hasLoneBlock {words : List Word} {source : String}
    (laid : LaidWords [] words source.toList) (lone : HasLoneBlock words) (constant : Constant) :
    parse source ≠ .ok constant := by
  obtain ⟨before, block, after, rfl, takesOne⟩ := lone
  obtain ⟨behind, inFront⟩ := laid.of_block
  exact parse_of_quotes inFront takesOne constant

/-- A source whose block strings are items of lists is accepted, with three items for each. -/
theorem exists_parse_of_areItems {words : List Word} {source : String} {meaning : Constant}
    (laid : LaidWords [] words source.toList) (writable : meaning.IsWritable)
    (same : words.map Word.meant = meaning.tokens) (areItems : AreItems [] words) :
    ∃ constant, parse source = .ok constant ∧ constant.tokens = words.flatMap Word.asRead := by
  obtain ⟨constant, isWritable, isRead⟩ := exists_constant meaning writable same areItems
    (areItems.ne_block takesOneValue_nil)
  refine ⟨constant, ?_, isRead⟩
  rw [parse_eq_ok_iff_readConstant, readConstant_eq_ok_iff, uses_all_iff, laid.map_tokens_eq,
    isRead]
  exact ⟨isWritable, rfl⟩

end Constant

namespace Signature

theorem parse_of_hasLoneBlock {words : List Word} {source : String}
    (laid : LaidWords [] words source.toList) (lone : HasLoneBlock words)
    (signature : Signature) : parse source ≠ .ok signature := by
  obtain ⟨before, block, after, rfl, takesOne⟩ := lone
  obtain ⟨behind, inFront⟩ := laid.of_block
  exact parse_of_quotes inFront takesOne signature

theorem exists_parse_of_areItems {words : List Word} {source : String} {meaning : Signature}
    (laid : LaidWords [] words source.toList) (writable : meaning.IsWritable)
    (same : words.map Word.meant = meaning.tokens) (areItems : AreItems [] words) :
    ∃ signature, parse source = .ok signature ∧
      signature.tokens = words.flatMap Word.asRead := by
  obtain ⟨signature, isWritable, isRead⟩ := exists_signature meaning writable same areItems
  refine ⟨signature, ?_, isRead⟩
  rw [parse_eq_ok_iff_readSignature, readSignature_eq_ok_iff, laid.map_tokens_eq, isRead]
  exact ⟨isWritable, rfl⟩

end Signature

namespace Grammar

/-! ### Block strings in a list, in a default and in a member -/

/-- A block string of three letters. -/
def BlockText.abc : BlockText where
  content := ['a', 'b', 'c']
  nonempty := List.cons_ne_nil _ _
  plain := by
    intro letter member
    simp only [List.mem_cons, List.not_mem_nil, or_false] at member
    rcases member with rfl | rfl | rfl <;> decide
  trimmed := by
    constructor <;>
    · rintro _ ⟨⟩
      rfl

/-- A list with a block string as its item. -/
def listWords : List Word :=
  [.plain (.mark .openBracket), .block .abc, .plain (.mark .closeBracket)]

theorem LaidWords.listWords {rest behind : List Char} {words : List Word}
    (laid : LaidWords rest words behind) :
    LaidWords rest (listWords ++ words) ("[\"\"\"abc\"\"\"]".toList ++ behind) := by
  have closing : LaidWords rest (.plain (.mark .closeBracket) :: words) (']' :: behind) :=
    laid.mark .closeBracket
  have inside : LaidWords rest (.block .abc :: .plain (.mark .closeBracket) :: words) _ :=
    .block .nil closing
  exact inside.mark .openBracket

theorem laidWords_listWords : LaidWords [] listWords "[\"\"\"abc\"\"\"]".toList :=
  LaidWords.listWords (.nil .nil)

/-- The definition of a field with such a list as a default. -/
def fieldWords : List Word :=
  .plain (.name ⟨['f'], rfl⟩) :: .plain (.mark .openParenthesis) :: .plain (.name ⟨['a'], rfl⟩) ::
    .plain (.mark .colon) :: .plain (.name ⟨['B'], rfl⟩) :: .plain (.mark .equals) ::
      (listWords ++ [.plain (.mark .closeParenthesis)])

/-- The field that is meant. -/
def fieldMeaning : Signature :=
  ⟨⟨['f'], rfl⟩, [⟨⟨['a'], rfl⟩, .named ⟨['B'], rfl⟩ false, some (.list [.text "abc"])⟩]⟩

theorem laidWords_fieldWords :
    LaidWords [] fieldWords "f(a:B=[\"\"\"abc\"\"\"])".toList := by
  have closing : LaidWords [] [.plain (.mark .closeParenthesis)] [')'] :=
    .mark .closeParenthesis (.nil .nil)
  have typed := (closing.listWords.mark .equals).name ⟨['B'], rfl⟩ (not_startsWord_cons rfl _)
  have argument := (typed.mark .colon).name ⟨['a'], rfl⟩ (not_startsWord_cons rfl _)
  exact (argument.mark .openParenthesis).name ⟨['f'], rfl⟩ (not_startsWord_cons rfl _)

theorem laidWords_member :
    LaidWords ('"' :: '"' :: '"' :: "abc\"\"\"]".toList)
      [.plain (.mark .openBrace), .plain (.name ⟨['k'], rfl⟩), .plain (.mark .colon)]
      "\x7bk:\"\"\"abc\"\"\"]".toList := by
  have value : LaidWords _ [.plain (.mark .colon)] (':' :: "\"\"\"abc\"\"\"]".toList) :=
    .mark .colon (.nil .nil)
  exact (value.name ⟨['k'], rfl⟩ (not_startsWord_cons rfl _)).mark .openBrace

/-! ### Sources with block strings -/

/-- Where three quotes follow some words in place of one value, the source is refused, whatever
stands behind them. A whole source whose words are those of a constant or of a field, with block
strings among its texts, is never misread exactly if one of these block strings stands in place of
one value. -/
theorem neverMisread_iff {words : List Word} {rest : List Char} {source : String}
    (laid : LaidWords rest words source.toList) :
    (∀ behind, rest = '"' :: '"' :: '"' :: behind → TakesOneValue (words.map Word.meant) →
      (∀ constant, Constant.parse source ≠ .ok constant) ∧
        ∀ signature, Signature.parse source ≠ .ok signature) ∧
    ∀ block, rest = [] → .block block ∈ words →
      (∀ meaning : Constant, meaning.IsWritable → words.map Word.meant = meaning.tokens →
        (NeverMisread Constant.parse source meaning ↔ HasLoneBlock words)) ∧
      ∀ meaning : Signature, meaning.IsWritable → words.map Word.meant = meaning.tokens →
        (NeverMisread Signature.parse source meaning ↔ HasLoneBlock words) := by
  constructor
  · rintro behind rfl takesOne
    exact ⟨Constant.parse_of_quotes laid takesOne, Signature.parse_of_quotes laid takesOne⟩
  · rintro block rfl member
    constructor
    · intro meaning writable same
      exact neverMisread_iff_hasLoneBlock member same (Constant.parse_of_hasLoneBlock laid)
        (Constant.exists_parse_of_areItems laid writable same)
    · intro meaning writable same
      exact neverMisread_iff_hasLoneBlock member same (Signature.parse_of_hasLoneBlock laid)
        (Signature.exists_parse_of_areItems laid writable same)

/-- A member whose value is a block string is refused, even if its object is not closed. A list of
block strings is misread, alone and as a default. -/
theorem neverMisread_iff_in_member_list_and_default :
    (LaidWords ('"' :: '"' :: '"' :: "abc\"\"\"]".toList)
        [.plain (.mark .openBrace), .plain (.name ⟨['k'], rfl⟩), .plain (.mark .colon)]
        "\x7bk:\"\"\"abc\"\"\"]".toList ∧
      TakesOneValue [.mark .openBrace, .name ⟨['k'], rfl⟩, .mark .colon] ∧
      ∀ constant, Constant.parse "\x7bk:\"\"\"abc\"\"\"]" ≠ .ok constant) ∧
    (LaidWords [] listWords "[\"\"\"abc\"\"\"]".toList ∧ .block .abc ∈ listWords ∧
      (Constant.list [.text "abc"]).IsWritable ∧
      listWords.map Word.meant = (Constant.list [.text "abc"]).tokens ∧
      (NeverMisread Constant.parse "[\"\"\"abc\"\"\"]" (.list [.text "abc"]) ↔
        HasLoneBlock listWords)) ∧
    (LaidWords [] fieldWords "f(a:B=[\"\"\"abc\"\"\"])".toList ∧ .block .abc ∈ fieldWords ∧
      fieldMeaning.IsWritable ∧ fieldWords.map Word.meant = fieldMeaning.tokens ∧
      (NeverMisread Signature.parse "f(a:B=[\"\"\"abc\"\"\"])" fieldMeaning ↔
        HasLoneBlock fieldWords)) := by
  have takesOne : TakesOneValue [.mark .openBrace, .name ⟨['k'], rfl⟩, .mark .colon] := by
    rintro _ ⟨⟩
    exact Or.inl rfl
  have inList : .block .abc ∈ listWords := List.mem_cons_of_mem _ List.mem_cons_self
  have inField : .block .abc ∈ fieldWords := by simp [fieldWords, inList]
  have listWritable : (Constant.list [.text "abc"]).IsWritable := ⟨trivial, trivial⟩
  have fieldWritable : fieldMeaning.IsWritable := by
    refine List.forall_mem_singleton.mpr ?_
    rintro _ ⟨⟩
    exact listWritable
  refine ⟨⟨laidWords_member, takesOne, ?_⟩,
    ⟨laidWords_listWords, inList, listWritable, rfl, ?_⟩,
    laidWords_fieldWords, inField, fieldWritable, rfl, ?_⟩
  · exact ((neverMisread_iff laidWords_member).1 _ rfl takesOne).1
  · exact ((neverMisread_iff laidWords_listWords).2 _ rfl inList).1 _ listWritable rfl
  · exact ((neverMisread_iff laidWords_fieldWords).2 _ rfl inField).2 _ fieldWritable rfl

/-- A list that has a block string as its item is accepted as a list of three items. -/
theorem not_neverMisread_of_block_in_list :
    LaidWords [] listWords "[\"\"\"abc\"\"\"]".toList ∧
    listWords.map Word.meant = (Constant.list [.text "abc"]).tokens ∧
    Constant.parse "[\"\"\"abc\"\"\"]" = .ok (.list [.text "", .text "abc", .text ""]) ∧
    ¬NeverMisread Constant.parse "[\"\"\"abc\"\"\"]" (.list [.text "abc"]) := by
  have read : Constant.parse "[\"\"\"abc\"\"\"]" =
      .ok (.list [.text "", .text "abc", .text ""]) := by
    with_unfolding_all rfl
  refine ⟨laidWords_listWords, rfl, read, fun never => ?_⟩
  have same := never _ read
  simp at same

end Grammar

end SchemaAssembly
