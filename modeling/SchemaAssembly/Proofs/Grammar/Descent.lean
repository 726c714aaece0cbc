/-
This file proves that the descent on characters and the readers on tokens come to the same, for
types, arguments and fields as for constants. As the descent ends on every source, the parsers find
what it finds, and the place of a failure is an end of the source.
-/

import SchemaAssembly.Proofs.Grammar.ConstantDescent

namespace SchemaAssembly.Grammar

/-! ### What the readers return -/

/-- A production and a reader come to the same. -/
inductive Outcome.Agrees {α : Type} : Outcome α → Reading α → Prop
  | taken (value : α) (rest : List Char) : Agrees (.taken value rest) (.read value (tokens rest))
  | absent (place : List Char) : Agrees (.absent place) (.missing place)
  | broken (place : List Char) : Agrees (.broken place) (.broken place)

/-- A production comes to what a reader returns that does not tell how it has failed. -/
inductive Outcome.Gives {α : Type} :
    Outcome α → Except (List Char) (α × List Placed) → Prop
  | taken (value : α) (rest : List Char) : Gives (.taken value rest) (.ok (value, tokens rest))
  | absent (place : List Char) : Gives (.absent place) (.error place)
  | broken (place : List Char) : Gives (.broken place) (.error place)

/-- What a reader returns that tells how it has failed. -/
def Reading.returned {α : Type} : Reading α → Except (List Char) (α × List Placed)
  | .read value rest => .ok (value, rest)
  | .missing position => .error position
  | .broken position => .error position

theorem Outcome.Agrees.gives {α : Type} {outcome : Outcome α} {reading : Reading α}
    (agrees : outcome.Agrees reading) : outcome.Gives reading.returned := by
  cases agrees with
  | taken value rest => exact .taken value rest
  | absent place => exact .absent place
  | broken place => exact .broken place

/-- Where nothing is pending, the constant that is taken is the one that is read. -/
theorem Outcome.Follows.gives {source : List Char} {outcome : Outcome Constant}
    {result : Except (List Char) (Constant × List Placed)}
    (follows : outcome.Follows [] source result) : outcome.Gives result := by
  cases follows with
  | taken constant rest => exact .taken constant rest
  | absent => exact .absent source
  | broken place => exact .broken place

namespace Production

/-! ### Types -/

/-- A type without an exclamation point behind it is optional. -/
theorem withMark_of_startsWithout {placed : List Placed}
    (without : StartsWithout .exclamation placed) (type : Bool → TypeRef) :
    withMark type placed = .read (type false) placed := by
  unfold withMark
  split
  · exact absurd rfl (without _ rfl)
  · rfl

theorem agrees_marked (type : Bool → TypeRef) (source : List Char) :
    (marked type source).Agrees (withMark type (tokens source)) := by
  obtain ⟨rest, taken, isTokens⟩ | ⟨absent, without⟩ :=
    mark_cases (opening_tokens source) .exclamation
  · have given : marked type source = .taken (type true) rest := by simp [marked, taken]
    rw [given, isTokens]
    exact .taken _ rest
  · have notGiven : marked type source = .taken (type false) source := by simp [marked, absent]
    rw [notGiven, withMark_of_startsWithout without]
    exact .taken _ source

/-- No type begins with anything but a bracket or a name. -/
theorem readType_of_startsWithout {placed : List Placed}
    (noBracket : StartsWithout .openBracket placed) (noName : StartsWithoutName placed) :
    readType placed = .missing (position placed) := by
  unfold readType
  split
  · next name _ _ => exact absurd rfl (noName _ rfl name)
  · exact absurd rfl (noBracket _ rfl)
  · rfl

/-- The descent takes the type that is read from the tokens. It goes down one level with each
bracket, for which there is a character. -/
theorem agrees_typeRef {levels : Nat} {source : List Char}
    (enough : (skipIgnored false source).length < levels) :
    (typeRef levels (skipIgnored false source)).Agrees (readType (tokens source)) := by
  induction levels generalizing source with
  | zero => exact absurd enough (Nat.not_lt_zero _)
  | succ levels inductionHypothesis =>
    have opening := opening_tokens source
    obtain ⟨rest, taken, isTokens⟩ | ⟨absent, noBracket⟩ := mark_cases opening .openBracket
    · have shorter := (advancesOn_mark .openBracket _).shorter taken
      have shorterStart := Nat.lt_of_le_of_lt (skipIgnored_suffix false rest).length_le shorter
      have inside := inductionHypothesis
        (Nat.lt_of_lt_of_le shorterStart (Nat.le_of_lt_succ enough))
      rw [isTokens]
      unfold readType
      generalize isInside : typeRef levels (skipIgnored false rest) = outcome at inside
      generalize readType (tokens rest) = reading at inside
      cases inside with
      | taken item after =>
        obtain ⟨last, closed, isClosing⟩ | ⟨notClosed, without⟩ :=
          mark_cases (opening_tokens after) .closeBracket
        · have whole : typeRef (levels + 1) (skipIgnored false source) =
              marked (.list item) last := by
            simp [typeRef, listType, taken, isInside, closed]
          rw [whole, isClosing]
          exact agrees_marked (.list item) last
        · have whole : typeRef (levels + 1) (skipIgnored false source) =
              .broken (skipIgnored false after) := by
            simp [typeRef, listType, taken, isInside, notClosed]
          rw [whole]
          split
          · next same =>
            obtain ⟨-, isClosing⟩ := Reading.read.inj same
            rw [isClosing] at without
            exact absurd rfl (without _ rfl)
          · next same =>
            obtain ⟨-, rfl⟩ := Reading.read.inj same
            rw [← position_tokens]
            exact .broken _
          · next same => cases same
          · next same => cases same
      | absent place =>
        have whole : typeRef (levels + 1) (skipIgnored false source) = .broken place := by
          simp [typeRef, listType, taken, isInside]
        rw [whole]
        exact .broken place
      | broken place =>
        have whole : typeRef (levels + 1) (skipIgnored false source) = .broken place := by
          simp [typeRef, listType, taken, isInside]
        rw [whole]
        exact .broken place
    · obtain ⟨name, rest, taken, isTokens⟩ | ⟨noName, noNameToken⟩ := someName_cases opening
      · have whole : typeRef (levels + 1) (skipIgnored false source) =
            marked (.named name) rest := by
          simp [typeRef, listType, namedType, absent, taken]
        rw [whole, isTokens]
        exact agrees_marked (.named name) rest
      · have whole : typeRef (levels + 1) (skipIgnored false source) =
            .absent (skipIgnored false source) := by
          simp [typeRef, listType, namedType, absent, noName]
        rw [whole, readType_of_startsWithout noBracket noNameToken, position_tokens]
        exact .absent _

end Production

/-! ### Lists of arguments -/

/-- A production for several values comes to what a reader returns. Ignored text behind the values
belongs to them. -/
inductive Outcome.Lists {α : Type} :
    Outcome (List α) → Except (List Char) (List α × List Placed) → Prop
  | taken (values : List α) (source : List Char) :
      Lists (.taken values (skipIgnored false source)) (.ok (values, tokens source))
  | absent (place : List Char) : Lists (.absent place) (.error place)
  | broken (place : List Char) : Lists (.broken place) (.error place)

/-- A value in front of what a reader returns. -/
def inFrontOf {α : Type} (value : α) :
    Except (List Char) (List α × List Placed) → Except (List Char) (List α × List Placed)
  | .ok (others, after) => .ok (value :: others, after)
  | .error position => .error position

theorem Outcome.Lists.cons {α : Type} {outcome : Outcome (List α)}
    {result : Except (List Char) (List α × List Placed)} (lists : outcome.Lists result)
    (value : α) :
    (outcome.andThen fun others => (pure (value :: others) : Production (List α))).Lists
      (inFrontOf value result) := by
  cases lists with
  | taken others source => exact .taken (value :: others) source
  | absent place => exact .absent place
  | broken place => exact .broken place

/-- A further argument stands in front of those behind it. -/
theorem readFurther_of_read {placed rest : List Placed} {argument : InlineArgument}
    (read : readArgument placed = .read argument rest) :
    readFurther placed = inFrontOf argument (readFurther rest) := by
  rw [readFurther]
  split
  · next same =>
    cases read.symm.trans same
    rcases readFurther rest with position | ⟨others, after⟩ <;> rfl
  · next same => cases read.symm.trans same
  · next same => cases read.symm.trans same

/-- The list ends where no argument begins. -/
theorem readFurther_of_missing {placed : List Placed} {place : List Char}
    (missing : readArgument placed = .missing place) : readFurther placed = .ok ([], placed) := by
  rw [readFurther]
  split
  · next same => cases missing.symm.trans same
  · rfl
  · next same => cases missing.symm.trans same

/-- A list with a broken argument is broken in the same place. -/
theorem readFurther_of_broken {placed : List Placed} {place : List Char}
    (broken : readArgument placed = .broken place) : readFurther placed = .error place := by
  rw [readFurther]
  split
  · next same => cases broken.symm.trans same
  · next same => cases broken.symm.trans same
  · next same =>
    cases broken.symm.trans same
    rfl

theorem readArguments_of_read {placed rest : List Placed} {argument : InlineArgument}
    (read : readArgument placed = .read argument rest) :
    readArguments placed = inFrontOf argument (readFurther rest) := by
  rw [readArguments, read]
  dsimp only
  rcases readFurther rest with position | ⟨others, after⟩ <;> rfl

theorem Outcome.Lists.gives {α : Type} {outcome : Outcome (List α)}
    {result : Except (List Char) (List α × List Placed)} (lists : outcome.Lists result) :
    outcome.Gives result := by
  cases lists with
  | taken values source =>
    rw [← Production.tokens_skipIgnored source]
    exact .taken values _
  | absent place => exact .absent place
  | broken place => exact .broken place

namespace Production

/-! ### Arguments and fields -/

theorem withDefault_of_startsWithout {placed : List Placed} (without : StartsWithout .equals placed)
    (name : Name) (type : TypeRef) :
    withDefault name type placed = .read ⟨name, type, none⟩ placed := by
  unfold withDefault
  split
  · exact absurd rfl (without _ rfl)
  · rfl

/-- An equals sign tells that there is a default, and commits to it. -/
theorem agrees_defaultValue {levels : Nat} (name : Name) (type : TypeRef) {source : List Char}
    (enough : source.length < levels) :
    ((defaultValue levels source).andThen fun default? =>
      (pure ⟨name, type, default?⟩ : Production InlineArgument)).Agrees
        (withDefault name type (tokens source)) := by
  have kept := (skipIgnored_suffix false source).length_le
  obtain ⟨rest, taken, isTokens⟩ | ⟨absent, without⟩ := mark_cases (opening_tokens source) .equals
  · have shorter := (advancesOn_mark .equals _).shorter taken
    have keptBehind := (skipIgnored_suffix false rest).length_le
    have follows : (constant levels (skipIgnored false rest)).Follows []
        (skipIgnored false rest) (readFrom .value [] (tokens rest)) :=
      follows_constant [] (by omega)
    rw [isTokens, withDefault, readConstant]
    generalize isValue : constant levels (skipIgnored false rest) = outcome at follows
    generalize readFrom .value [] (tokens rest) = result at follows
    cases follows with
    | taken constant last =>
      have whole : defaultValue levels source = .taken (some constant) last := by
        simp [defaultValue, taken, isValue]
      rw [whole]
      exact .taken _ last
    | absent =>
      have whole : defaultValue levels source = .broken (skipIgnored false rest) := by
        simp [defaultValue, taken, isValue]
      rw [whole]
      exact .broken _
    | broken place =>
      have whole : defaultValue levels source = .broken place := by
        simp [defaultValue, taken, isValue]
      rw [whole]
      exact .broken place
  · have whole : defaultValue levels source = .taken none source := by
      simp [defaultValue, absent]
    rw [whole, withDefault_of_startsWithout without]
    exact .taken _ source

theorem readArgument_of_startsWithoutName {placed : List Placed}
    (noName : StartsWithoutName placed) : readArgument placed = .missing (position placed) := by
  unfold readArgument
  split
  · next name _ _ _ => exact absurd rfl (noName _ rfl name)
  · next name _ _ _ => exact absurd rfl (noName _ rfl name)
  · rfl

/-- A name without a colon behind it is no argument. -/
theorem readArgument_of_startsWithout {placed : List Placed} (name : Name) (start : List Char)
    (without : StartsWithout .colon placed) :
    readArgument (⟨.name name, start⟩ :: placed) = .missing (position placed) := by
  unfold readArgument
  split
  · next same =>
    cases same
    exact absurd rfl (without _ rfl)
  · next same =>
    cases same
    rfl
  · next noName => exact absurd rfl (noName _ _ _)

/-- The descent takes the argument that is read from the tokens: name, colon, type and, perhaps,
default. -/
theorem agrees_argument {levels : Nat} {source : List Char}
    (enough : (skipIgnored false source).length < levels) :
    (argument levels (skipIgnored false source)).Agrees (readArgument (tokens source)) := by
  have opening := opening_tokens source
  obtain ⟨name, rest, taken, isTokens⟩ | ⟨absent, noName⟩ := someName_cases opening
  · have shorter := (advancesOn_someName _).shorter taken
    have kept := (skipIgnored_suffix false rest).length_le
    obtain ⟨after, colon, isColon⟩ | ⟨noColon, without⟩ := mark_cases (opening_tokens rest) .colon
    · have shorterAfter := (advancesOn_mark .colon _).shorter colon
      have keptAfter := (skipIgnored_suffix false after).length_le
      have short : (skipIgnored false after).length < levels := by omega
      have typed := agrees_typeRef short
      rw [isTokens, isColon, readArgument]
      generalize isType : typeRef levels (skipIgnored false after) = outcome at typed
      generalize readType (tokens after) = reading at typed
      cases typed with
      | taken type last =>
        have whole : argument levels (skipIgnored false source) =
            (defaultValue levels last).andThen fun default? => pure ⟨name, type, default?⟩ := by
          simp [argument, taken, colon, isType]
        rw [whole]
        have shorterLast := (advancesOn_typeRef short).shorter isType
        exact agrees_defaultValue name type (by omega)
      | absent place =>
        have whole : argument levels (skipIgnored false source) = .absent place := by
          simp [argument, taken, colon, isType]
        rw [whole]
        exact .absent place
      | broken place =>
        have whole : argument levels (skipIgnored false source) = .broken place := by
          simp [argument, taken, colon, isType]
        rw [whole]
        exact .broken place
    · have whole : argument levels (skipIgnored false source) =
          .absent (skipIgnored false rest) := by
        simp [argument, taken, noColon]
      rw [whole, isTokens, readArgument_of_startsWithout name _ without, position_tokens]
      exact .absent _
  · have whole : argument levels (skipIgnored false source) =
        .absent (skipIgnored false source) := by
      simp [argument, absent]
    rw [whole, readArgument_of_startsWithoutName noName, position_tokens]
    exact .absent _

/-- Further arguments are taken as long as there are definitions of some. -/
theorem lists_further {levels count : Nat} {source : List Char}
    (short : (skipIgnored false source).length < levels)
    (enough : (skipIgnored false source).length < count) :
    (turns (spaced (argument levels)) count (skipIgnored false source)).Lists
      (readFurther (tokens source)) := by
  induction count generalizing source with
  | zero => exact absurd enough (Nat.not_lt_zero _)
  | succ count inductionHypothesis =>
    have agrees := agrees_argument short
    generalize isArgument : argument levels (skipIgnored false source) = outcome at agrees
    generalize isReading : readArgument (tokens source) = reading at agrees
    cases agrees with
    | taken value rest =>
      have shorter := Nat.lt_of_le_of_lt (skipIgnored_suffix false rest).length_le
        ((advancesOn_argument short).shorter isArgument)
      have others := inductionHypothesis (Nat.lt_trans shorter short)
        (Nat.lt_of_lt_of_le shorter (Nat.le_of_lt_succ enough))
      rw [turns_of_taken (spaced_of_taken isArgument) shorter, readFurther_of_read isReading]
      exact others.cons value
    | absent place =>
      have absent : spaced (argument levels) (skipIgnored false source) = .absent place := by
        simp [spaced, isArgument]
      rw [turns_of_absent absent, readFurther_of_missing isReading]
      exact .taken [] source
    | broken place =>
      have broken : spaced (argument levels) (skipIgnored false source) = .broken place := by
        simp [spaced, isArgument]
      rw [turns_of_broken broken, readFurther_of_broken isReading]
      exact .broken place

/-- The descent takes the list of arguments that is read from the tokens. The first of them has to
be there. -/
theorem lists_argumentList {levels : Nat} {source : List Char}
    (short : (skipIgnored false source).length < levels) :
    (argumentList levels (skipIgnored false source)).Lists (readArguments (tokens source)) := by
  have agrees := agrees_argument short
  generalize isArgument : argument levels (skipIgnored false source) = outcome at agrees
  generalize isReading : readArgument (tokens source) = reading at agrees
  cases agrees with
  | taken value rest =>
    have shorter := Nat.lt_of_le_of_lt (skipIgnored_suffix false rest).length_le
      ((advancesOn_argument short).shorter isArgument)
    have others := lists_further (Nat.lt_trans shorter short) (Nat.lt_succ_self _)
    have whole : argumentList levels (skipIgnored false source) =
        (repeated (spaced (argument levels)) (skipIgnored false rest)).andThen fun others =>
          pure (value :: others) := by
      simp [argumentList, spaced_of_taken isArgument]
    rw [whole, readArguments_of_read isReading]
    exact others.cons value
  | absent place =>
    have whole : argumentList levels (skipIgnored false source) = .absent place := by
      simp [argumentList, spaced, isArgument]
    rw [whole, readArguments, isReading]
    exact .absent place
  | broken place =>
    have whole : argumentList levels (skipIgnored false source) = .broken place := by
      simp [argumentList, spaced, isArgument]
    rw [whole, readArguments, isReading]
    exact .broken place

theorem readSignature_of_startsWithoutName {placed : List Placed}
    (noName : StartsWithoutName placed) : readSignature placed = .error (position placed) := by
  unfold readSignature
  split
  · next name _ _ _ => exact absurd rfl (noName _ rfl name)
  · next name _ _ _ => exact absurd rfl (noName _ rfl name)
  · rfl

/-- A field without a parenthesis has no arguments. -/
theorem readSignature_of_startsWithout {placed : List Placed} (name : Name) (start : List Char)
    (without : StartsWithout .openParenthesis placed) :
    readSignature (⟨.name name, start⟩ :: placed) = .ok (⟨name, []⟩, placed) := by
  unfold readSignature
  split
  · next same =>
    cases same
    exact absurd rfl (without _ rfl)
  · next same =>
    cases same
    rfl
  · next noName => exact absurd rfl (noName _ _ _)

/-- The descent takes the field that is read from the tokens. -/
theorem gives_signature {levels : Nat} {source : List Char}
    (short : (skipIgnored false source).length < levels) :
    (signature levels (skipIgnored false source)).Gives (readSignature (tokens source)) := by
  have opening := opening_tokens source
  obtain ⟨name, rest, taken, isTokens⟩ | ⟨absent, noName⟩ := someName_cases opening
  · have shorter := (advancesOn_someName _).shorter taken
    have kept := (skipIgnored_suffix false rest).length_le
    obtain ⟨behind, opened, isOpening⟩ | ⟨notOpened, without⟩ :=
      mark_cases (opening_tokens rest) .openParenthesis
    · have shorterBehind := (advancesOn_mark .openParenthesis _).shorter opened
      have keptBehind := (skipIgnored_suffix false behind).length_le
      have shortBehind : (skipIgnored false behind).length < levels := by omega
      have lists := lists_argumentList shortBehind
      rw [isTokens, isOpening, readSignature]
      generalize isList : argumentList levels (skipIgnored false behind) = outcome at lists
      generalize readArguments (tokens behind) = result at lists
      cases lists with
      | taken inside last =>
        obtain ⟨after, closed, isClosing⟩ | ⟨notClosed, without⟩ :=
          mark_cases (opening_tokens last) .closeParenthesis
        · have whole : signature levels (skipIgnored false source) =
              .taken ⟨name, inside⟩ after := by
            simp [signature, arguments, taken, opened, isList, closed]
          rw [whole, isClosing]
          exact .taken _ after
        · have whole : signature levels (skipIgnored false source) =
              .broken (skipIgnored false last) := by
            simp [signature, arguments, taken, opened, isList, notClosed]
          rw [whole]
          split
          · next same =>
            obtain ⟨-, isClosing⟩ := Prod.mk.inj (Except.ok.inj same)
            rw [isClosing] at without
            exact absurd rfl (without _ rfl)
          · next same =>
            obtain ⟨-, rfl⟩ := Prod.mk.inj (Except.ok.inj same)
            rw [← position_tokens]
            exact .broken _
          · next same => cases same
      | absent place =>
        have whole : signature levels (skipIgnored false source) = .broken place := by
          simp [signature, arguments, taken, opened, isList]
        rw [whole]
        exact .broken place
      | broken place =>
        have whole : signature levels (skipIgnored false source) = .broken place := by
          simp [signature, arguments, taken, opened, isList]
        rw [whole]
        exact .broken place
    · have whole : signature levels (skipIgnored false source) =
          .taken ⟨name, []⟩ (skipIgnored false rest) := by
        simp [signature, arguments, taken, notOpened]
      rw [whole, isTokens, readSignature_of_startsWithout name _ without, ← tokens_skipIgnored rest]
      exact .taken _ _
  · have whole : signature levels (skipIgnored false source) =
        .absent (skipIgnored false source) := by
      simp [signature, absent]
    rw [whole, readSignature_of_startsWithoutName noName, position_tokens]
    exact .absent _

end Production

/-! ### Whole sources -/

/-- A production comes to what a parser returns: the value, if nothing is left, or the violation at
the place of the failure. The offset is what stands in front of that place, counted in bytes: no
place has more bytes behind it than the source has. -/
inductive Outcome.Decides {α : Type} (source : List Char) :
    Outcome α → Except SyntaxError α → Prop
  | taken (value : α) : Decides source (.taken value []) (.ok value)
  | absent {place : List Char}
      (counted : (SyntaxError.before source place).offset + Text.byteCount place =
        Text.byteCount source) :
      Decides source (.absent place) (.error (.before source place))
  | broken {place : List Char}
      (counted : (SyntaxError.before source place).offset + Text.byteCount place =
        Text.byteCount source) :
      Decides source (.broken place) (.error (.before source place))

/-- The offset of a place and the bytes behind it make up the source. -/
theorem offset_add_byteCount {source place : List Char} (suffix : place <:+ source) :
    (SyntaxError.before source place).offset + Text.byteCount place = Text.byteCount source := by
  obtain ⟨front, rfl⟩ := suffix
  rw [SyntaxError.before, Text.byteCount_append, Nat.add_sub_cancel]

namespace Production

variable {α : Type}

/-- What is read with the source to itself, as the parsers return it. -/
def parsed (source : List Char) :
    Except (List Char) (α × List Placed) → Except SyntaxError α
  | .ok (value, []) => .ok value
  | .ok (_, rest) => .error (.before source (position rest))
  | .error position => .error (.before source position)

/-- What the descent makes of a source, with ignored text around it, is what the parsers return, if
it agrees with them inside. -/
theorem decides_wholly {production : Production α} {source : List Char}
    {result : Except (List Char) (α × List Placed)}
    (keeps : ∀ part, part <:+ source → production.KeepsOn part)
    (gives : (production (skipIgnored false source)).Gives result) :
    (wholly production source).Decides source (parsed source result) := by
  have ends := keepsOn_wholly keeps
  unfold KeepsOn at ends
  generalize isProduction : production (skipIgnored false source) = outcome at gives
  cases gives with
  | taken value rest =>
    cases skipped : skipIgnored false rest with
    | nil =>
      have whole : wholly production source = .taken value [] := by
        simp [wholly, isProduction, skipped, atEnd]
      rw [whole, tokens_of_skipIgnored_nil skipped]
      exact .taken value
    | cons first others =>
      have whole : wholly production source = .absent (first :: others) := by
        simp [wholly, isProduction, skipped, atEnd]
      rw [whole] at ends ⊢
      rw [tokens_of_skipIgnored_cons skipped]
      cases ends with
      | absent suffix => exact .absent (offset_add_byteCount suffix)
  | absent place =>
    have whole : wholly production source = .absent place := by
      simp [wholly, isProduction]
    rw [whole] at ends ⊢
    cases ends with
    | absent suffix => exact .absent (offset_add_byteCount suffix)
  | broken place =>
    have whole : wholly production source = .broken place := by
      simp [wholly, isProduction]
    rw [whole] at ends ⊢
    cases ends with
    | broken suffix => exact .broken (offset_add_byteCount suffix)

theorem parse_typeRef (source : List Char) :
    TypeRef.parse (String.ofList source) = parsed source (readType (tokens source)).returned := by
  unfold TypeRef.parse
  rw [String.toList_ofList]
  dsimp only
  rcases readType (tokens source) with ⟨type, _ | ⟨first, others⟩⟩ | position | position <;> rfl

theorem parse_constant (source : List Char) :
    Constant.parse (String.ofList source) = parsed source (readConstant (tokens source)) := by
  unfold Constant.parse
  rw [String.toList_ofList]
  dsimp only
  rcases readConstant (tokens source) with position | ⟨constant, _ | ⟨first, others⟩⟩ <;> rfl

theorem parseAll_arguments (source : List Char) :
    InlineArgument.parseAll (String.ofList source) =
      parsed source (readArguments (tokens source)) := by
  unfold InlineArgument.parseAll
  rw [String.toList_ofList]
  dsimp only
  rcases readArguments (tokens source) with position | ⟨arguments, _ | ⟨first, others⟩⟩ <;> rfl

theorem parse_signature (source : List Char) :
    Signature.parse (String.ofList source) = parsed source (readSignature (tokens source)) := by
  unfold Signature.parse
  rw [String.toList_ofList]
  dsimp only
  rcases readSignature (tokens source) with position | ⟨signature, _ | ⟨first, others⟩⟩ <;> rfl

/-- The descent ends on every source, with as many levels as there are characters. An ignored item,
a type, an argument, a constant, a member and each turn of reading a text take at least one
character or fail within the source. So each of the repetitions ends, after no more turns than there
are characters, and none of them stands still. No limit is met, and the parsers return what the
descent finds; a failure lies at an end of the source, of which the offset counts what stands in
front. -/
theorem descent_ends (source : List Char) (levels : Nat) (enough : source.length < levels) :
    (ignoredItem.AdvancesOn source ∧ literalPart.AdvancesOn source ∧
      (typeRef levels).AdvancesOn source ∧ (argument levels).AdvancesOn source ∧
      (constant levels).AdvancesOn source ∧ (member (constant levels)).AdvancesOn source) ∧
    (ignoredItem.RepeatsOn source ∧ literalPart.RepeatsOn source ∧
      (spaced (argument levels)).RepeatsOn source ∧ (spaced (constant levels)).RepeatsOn source ∧
      (spaced (member (constant levels))).RepeatsOn source) ∧
    (wholly (typeRef levels) source).Decides source (TypeRef.parse (String.ofList source)) ∧
    (wholly (constant levels) source).Decides source (Constant.parse (String.ofList source)) ∧
    (wholly (argumentList levels) source).Decides source
      (InlineArgument.parseAll (String.ofList source)) ∧
    (wholly (signature levels) source).Decides source
      (Signature.parse (String.ofList source)) := by
  have shorter {part : List Char} (suffix : part <:+ source) : part.length < levels :=
    Nat.lt_of_le_of_lt suffix.length_le enough
  have members (part : List Char) (suffix : part <:+ source) :
      (member (constant levels)).AdvancesOn part :=
    advancesOn_member fun inner less => advancesOn_constant (Nat.lt_trans less (shorter suffix))
  have start := shorter (skipIgnored_suffix false source)
  refine ⟨⟨advancesOn_ignoredItem source, advancesOn_literalPart source, advancesOn_typeRef enough,
    advancesOn_argument enough, advancesOn_constant enough, members source (List.suffix_refl _)⟩,
    ⟨?_, ?_, ?_, ?_, ?_⟩, ?_, ?_, ?_, ?_⟩
  · exact repeatsOn fun part _ => advancesOn_ignoredItem part
  · exact repeatsOn fun part _ => advancesOn_literalPart part
  · exact repeatsOn fun _ suffix => advancesOn_spaced (advancesOn_argument (shorter suffix))
  · exact repeatsOn fun _ suffix => advancesOn_spaced (advancesOn_constant (shorter suffix))
  · exact repeatsOn fun part suffix => advancesOn_spaced (members part suffix)
  · rw [parse_typeRef]
    exact decides_wholly (fun _ suffix => (advancesOn_typeRef (shorter suffix)).keepsOn)
      (agrees_typeRef start).gives
  · rw [parse_constant]
    exact decides_wholly (fun _ suffix => (advancesOn_constant (shorter suffix)).keepsOn)
      (follows_constant [] start).gives
  · rw [parseAll_arguments]
    exact decides_wholly (fun _ suffix => keepsOn_argumentList (shorter suffix))
      (lists_argumentList start).gives
  · rw [parse_signature]
    exact decides_wholly (fun _ suffix => (advancesOn_signature (shorter suffix)).keepsOn)
      (gives_signature start)

/-- A list that is not closed, with a comment behind it: the failure lies at the end. -/
theorem descent_ends_unclosed :
    let source := "[[ID], # no more".toList
    source.length < 17 ∧ (typeRef 17).AdvancesOn source ∧
      wholly (typeRef 17) source = .broken [] ∧
      (wholly (typeRef 17) source).Decides source (TypeRef.parse (String.ofList source)) := by
  intro source
  have enough : source.length < 17 := by decide
  have fails : wholly (typeRef 17) source = .broken [] := by decide +kernel
  have ends := descent_ends source 17 enough
  exact ⟨enough, ends.1.2.2.1, fails, ends.2.2.1⟩

end Production

end SchemaAssembly.Grammar
