/-
This file proves where two texts may stand one behind the other in what is read. They may in a list,
as two of its items. Where one value is expected and no more, at the start, behind the colon of a
member and behind the equals sign of a default, a text is the whole value, and a second one is
refused by whatever state the reader is in.
-/

import SchemaAssembly.Proofs.Grammar.Signature

namespace SchemaAssembly.Grammar

/-! ### One value and no more -/

/-- Behind these tokens one value may stand and no more: what is last, if anything, is the colon of
a member or the equals sign of a default. -/
def TakesOneValue (before : List Token) : Prop :=
  ∀ last ∈ before.getLast?, last = .mark .colon ∨ last = .mark .equals

theorem takesOneValue_nil : TakesOneValue [] := nofun

/-- It is the last token that tells whether one value may stand and no more. -/
theorem takesOneValue_concat_iff {front : List Token} {last : Token} :
    TakesOneValue (front ++ [last]) ↔ last = .mark .colon ∨ last = .mark .equals := by
  simp [TakesOneValue]

theorem TakesOneValue.of_append {first second : List Token}
    (takesOne : TakesOneValue (first ++ second)) : TakesOneValue second := by
  intro last isLast
  refine takesOne last ?_
  rw [List.getLast?_append, Option.mem_def.mp isLast]
  rfl

/-- Where one value may stand and no more, there are not two texts. -/
def KeepsTextsApart (tokens : List Token) : Prop :=
  ∀ before first second after, tokens = before ++ .text first :: .text second :: after →
    ¬TakesOneValue before

/-- No text stands at the start of these tokens. -/
def StartsNoText (tokens : List Token) : Prop :=
  ∀ content, tokens.head? ≠ some (.text content)

/-- Texts stay apart where two parts meet, if the second part does not start with a text. -/
theorem keepsTextsApart_append {first second : List Token} (firstApart : KeepsTextsApart first)
    (secondApart : KeepsTextsApart second) (noText : StartsNoText second) :
    KeepsTextsApart (first ++ second) := by
  intro before one other after same takesOne
  rcases List.append_eq_append_iff.mp same with ⟨more, rfl, inSecond⟩ | ⟨more, rfl, cut⟩
  · exact secondApart more one other after inSecond takesOne.of_append
  · cases more with
    | nil => exact noText one (congrArg List.head? cut).symm
    | cons head others =>
      obtain ⟨rfl, behind⟩ := List.cons.inj cut
      cases others with
      | nil => exact noText other (congrArg List.head? behind).symm
      | cons next further =>
        obtain ⟨rfl, -⟩ := List.cons.inj behind
        exact firstApart before one other further rfl takesOne

theorem keepsTextsApart_of_noTexts {tokens : List Token}
    (noTexts : ∀ content, .text content ∉ tokens) : KeepsTextsApart tokens := by
  rintro before first second after rfl -
  exact noTexts first (List.mem_append_right before List.mem_cons_self)

/-! ### Constants -/

/-- A text in place of one value completes it, so a second one is refused. -/
theorem readFrom_two_texts {separator : Token}
    (separates : separator = .mark .colon ∨ separator = .mark .equals) (awaiting : Awaiting)
    (pending : List Frame) (source one other : List Char) (first second : String)
    (rest : List Placed) :
    ∃ stop, readFrom awaiting pending
      (⟨separator, source⟩ :: ⟨.text first, one⟩ :: ⟨.text second, other⟩ :: rest) =
        .error stop := by
  rcases separates with rfl | rfl <;> cases awaiting <;> exact ⟨_, rfl⟩

/-- Whatever has been read before, two texts in place of one value are refused. -/
theorem readFrom_ne_ok_of_two_texts {separator : Token}
    (separates : separator = .mark .colon ∨ separator = .mark .equals)
    {awaiting : Awaiting} {pending : List Frame} {front rest : List Placed}
    {source one other : List Char} {first second : String} {constant : Constant} :
    readFrom awaiting pending (front ++
      ⟨separator, source⟩ :: ⟨.text first, one⟩ :: ⟨.text second, other⟩ :: rest) ≠
        .ok (constant, []) := by
  intro read
  induction front generalizing awaiting pending with
  | nil =>
    obtain ⟨stop, fails⟩ := readFrom_two_texts separates awaiting pending source one other first
      second rest
    cases read.symm.trans fails
  | cons head others inductionHypothesis =>
    rw [List.cons_append, readFrom_cons] at read
    cases outcome : step awaiting pending head with
    | proceed next stack =>
      rw [outcome] at read
      exact inductionHypothesis read
    | finish found =>
      rw [outcome, resume, Except.ok.injEq, Prod.mk.injEq] at read
      exact List.append_ne_nil_of_right_ne_nil others (List.cons_ne_nil _ _) read.2
    | reject stop =>
      rw [outcome] at read
      cases read

/-- In a constant two texts side by side are items of a list, since the constant is read back from
its tokens. -/
theorem keepsTextsApart_of_isWritable {constant : Constant} (writable : constant.IsWritable) :
    KeepsTextsApart constant.tokens := by
  intro before first second after same takesOne
  have read : readConstant (constant.tokens.map (Placed.mk · [])) = .ok (constant, []) := by
    refine readConstant_eq_ok_iff.mpr ⟨writable, uses_all_iff.mpr ?_⟩
    rw [List.map_map]
    exact List.map_id _
  rw [same, List.map_append, List.map_cons, List.map_cons] at read
  rcases before.eq_nil_or_concat with rfl | ⟨front, last, rfl⟩
  · cases read
  · rw [List.concat_eq_append] at read takesOne
    rw [List.map_append, List.map_singleton, List.append_assoc] at read
    exact readFrom_ne_ok_of_two_texts (takesOneValue_concat_iff.mp takesOne) read

/-- There are no texts in types. -/
theorem text_notMem_tokens (type : TypeRef) (content : String) : .text content ∉ type.tokens := by
  have notMark (required : Bool) : .text content ∉ TypeRef.markTokens required := by
    cases required <;> simp [TypeRef.markTokens]
  induction type with
  | named name required => simpa [TypeRef.tokens] using notMark required
  | list item required inductionHypothesis =>
    simpa [TypeRef.tokens] using ⟨inductionHypothesis, notMark required⟩

/-! ### Fields -/

theorem keepsTextsApart_defaultTokens {default? : Option Constant}
    (writable : ∀ constant ∈ default?, constant.IsWritable) :
    KeepsTextsApart (InlineArgument.defaultTokens default?) := by
  cases default? with
  | none => exact keepsTextsApart_of_noTexts fun _ => List.not_mem_nil
  | some constant =>
    intro before first second after same takesOne
    cases before with
    | nil => cases same
    | cons head others =>
      obtain ⟨rfl, inConstant⟩ := List.cons.inj same
      have takesOneBehind : TakesOneValue ([.mark .equals] ++ others) := takesOne
      exact keepsTextsApart_of_isWritable (writable constant rfl) others first second after
        inConstant takesOneBehind.of_append

/-- In an argument texts stand in its default only. -/
theorem keepsTextsApart_argument {argument : InlineArgument} (writable : argument.IsWritable) :
    KeepsTextsApart argument.tokens := by
  have inFront : KeepsTextsApart
      (.name argument.name :: .mark .colon :: argument.type.tokens) :=
    keepsTextsApart_of_noTexts fun content => by
      simpa using text_notMem_tokens argument.type content
  have noText : StartsNoText (InlineArgument.defaultTokens argument.default?) := by
    cases argument.default? <;> exact nofun
  exact keepsTextsApart_append inFront (keepsTextsApart_defaultTokens writable) noText

theorem keepsTextsApart_arguments {arguments : List InlineArgument}
    (writable : ∀ argument ∈ arguments, argument.IsWritable) :
    KeepsTextsApart (arguments.flatMap InlineArgument.tokens) := by
  induction arguments with
  | nil => exact keepsTextsApart_of_noTexts fun _ => List.not_mem_nil
  | cons first others inductionHypothesis =>
    obtain ⟨firstWritable, othersWritable⟩ := List.forall_mem_cons.mp writable
    rw [List.flatMap_cons]
    refine keepsTextsApart_append (keepsTextsApart_argument firstWritable)
      (inductionHypothesis othersWritable) ?_
    cases others <;> exact nofun

/-- In a field texts stand in the defaults of its arguments only, and each argument starts with a
name. -/
theorem keepsTextsApart_signature {signature : Signature} (writable : signature.IsWritable) :
    KeepsTextsApart signature.tokens := by
  obtain ⟨name, arguments⟩ := signature
  cases arguments with
  | nil =>
    have onlyName : KeepsTextsApart [.name name] :=
      keepsTextsApart_of_noTexts fun content => by simp
    exact onlyName
  | cons first others =>
    have inFront : KeepsTextsApart [.name name, .mark .openParenthesis] :=
      keepsTextsApart_of_noTexts fun content => by simp
    have closing : KeepsTextsApart [.mark .closeParenthesis] :=
      keepsTextsApart_of_noTexts fun content => by simp
    have inside := keepsTextsApart_append (keepsTextsApart_arguments writable) closing nofun
    exact keepsTextsApart_append inFront inside nofun

end SchemaAssembly.Grammar
