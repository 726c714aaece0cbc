/-
This file defines the productions of the syntax on characters, as a descent without tokens: what
each takes from the start of a source, and which of them are tried in turn. Nothing in the
definitions makes them end. A repetition is given as many turns as there are characters left, and
one more in which to find that nothing follows; it gives up on a turn that takes nothing. Types and
constants, which contain each other, are given a number of levels. The theorems say that a level for
each character is enough, and that no turn takes nothing: a production either takes a character, or
it fails at a place within its source.
-/

import SchemaAssembly.Grammar.Signature
import SchemaAssembly.Proofs.Grammar.Numeral

namespace SchemaAssembly.Grammar

/-- What comes of a production at the start of a source: it takes something and leaves the rest; it
is absent, which leaves room for something else; or it is broken, which is final. The latter two
tell the place. The others are outcomes of a descent that does not end by itself: a turn of a
repetition has taken nothing, or turns or levels have been used up. -/
inductive Outcome (α : Type)
  | taken (value : α) (rest : List Char)
  | absent (place : List Char)
  | broken (place : List Char)
  | idle
  | unfinished
  deriving DecidableEq

/-- A production gives an outcome at the start of every source. -/
def Production (α : Type) : Type :=
  List Char → Outcome α

namespace Outcome

variable {α β : Type}

/-- Goes on with what has been taken. -/
@[simp]
def andThen (outcome : Outcome α) (next : α → Production β) : Outcome β :=
  match outcome with
  | .taken value rest => next value rest
  | .absent place => .absent place
  | .broken place => .broken place
  | .idle => .idle
  | .unfinished => .unfinished

/-- What else there may be if something is absent. -/
@[simp]
def orElse (outcome other : Outcome α) : Outcome α :=
  match outcome with
  | .absent _ => other
  | _ => outcome

/-- What is absent once it has been announced is broken. -/
@[simp]
def committed (outcome : Outcome α) : Outcome α :=
  match outcome with
  | .absent place => .broken place
  | _ => outcome

end Outcome

/-! ### Productions -/

namespace Production

variable {α β : Type}

instance : Monad Production where
  pure value source := .taken value source
  bind first next source := (first source).andThen next

instance : OrElse (Production α) where
  orElse first second source := (first source).orElse (second () source)

@[simp]
theorem pure_apply (value : α) (source : List Char) :
    (pure value : Production α) source = .taken value source :=
  rfl

@[simp]
theorem bind_apply (first : Production α) (next : α → Production β) (source : List Char) :
    (first >>= next) source = (first source).andThen next :=
  rfl

@[simp]
theorem orElse_apply (first second : Production α) (source : List Char) :
    (first <|> second) source = (first source).orElse (second source) :=
  rfl

/-- A production that has been announced by what stands before it. -/
@[simp]
def committed (production : Production α) : Production α :=
  fun source => (production source).committed

/-- A production that may be left out. -/
@[simp]
def optional (production : Production α) : Production (Option α) :=
  (do
    let value ← production
    return some value) <|> pure none

/-- Repeats a production until it is absent, for at most the given number of turns. -/
def turns (body : Production α) : Nat → Production (List α)
  | 0, _ => .unfinished
  | more + 1, source =>
    match body source with
    | .taken value rest =>
      if rest.length = source.length then .idle
      else (turns body more rest).andThen fun others => pure (value :: others)
    | .absent _ => .taken [] source
    | .broken place => .broken place
    | .idle => .idle
    | .unfinished => .unfinished

/-- Repeats a production until it is absent. -/
def repeated (body : Production α) : Production (List α) :=
  fun source => turns body (source.length + 1) source

/-- A given character. -/
def symbol (letter : Char) : Production Unit
  | [] => .absent []
  | first :: rest => if first = letter then .taken () rest else .absent (first :: rest)

/-- A given mark. -/
def mark (mark : Mark) : Production Unit :=
  symbol mark.letter

/-- The end of the source. -/
def atEnd : Production Unit
  | [] => .taken () []
  | first :: rest => .absent (first :: rest)

/-! #### Ignored text -/

/-- Blanks and line breaks. -/
def isBlank (letter : Char) : Bool :=
  letter == ' ' || letter == '\t' || letter == '\r' || letter == '\n'

/-- One blank or more. -/
def blanks : Production Unit
  | [] => .absent []
  | letter :: rest =>
    if isBlank letter then .taken () (rest.dropWhile isBlank) else .absent (letter :: rest)

/-- What is left of a line. -/
def restOfLine : Production Unit :=
  fun source => .taken () (source.dropWhile fun letter => !isLineEnd letter)

/-- A comment up to the end of its line. -/
def comment : Production Unit := do
  symbol '#'
  restOfLine

/-- One ignored item: blanks, a comma or a comment. -/
def ignoredItem : Production Unit :=
  blanks <|> symbol ',' <|> comment

/-- Ignored text, perhaps none. -/
def ignored : Production Unit := do
  let _ ← repeated ignoredItem
  return ()

/-- A production with ignored text behind it. -/
def spaced (production : Production α) : Production α := do
  let value ← production
  ignored
  return value

/-! #### Names and types -/

/-- A name. -/
def someName : Production Name
  | [] => .absent []
  | first :: rest =>
    if start : isNameStart first = true then
      .taken ⟨first :: rest.takeWhile isNamePart, isNameText_takeWhile start rest⟩
        (rest.dropWhile isNamePart)
    else .absent (first :: rest)

/-- The name of a type. -/
def namedType : Production (Bool → TypeRef) := do
  let given ← someName
  return .named given

/-- A type in brackets. The opening bracket commits to a list. -/
def listType (item : Production TypeRef) : Production (Bool → TypeRef) := do
  mark .openBracket
  ignored
  committed do
    let type ← item
    ignored
    mark .closeBracket
    return .list type

/-- A type that is required if an exclamation point follows. -/
def marked (type : Bool → TypeRef) : Production TypeRef := do
  let given ← optional do
    ignored
    mark .exclamation
  return type given.isSome

/-- A reference to a type, of at most the given number of levels. -/
def typeRef : Nat → Production TypeRef
  | 0 => fun _ => .unfinished
  | levels + 1 => do
    let type ← listType (typeRef levels) <|> namedType
    marked type

/-! #### Constants -/

/-- A number. It is absent wherever it fails, as something else is tried in its place. -/
def number : Production Constant :=
  fun source =>
    match number? source with
    | some (.int digits, rest) => .taken (.int digits) rest
    | some (.float digits, rest) => .taken (.float digits) rest
    | _ => .absent source

/-- A character within a text literal, or an escape: one turn of reading the literal. It is absent
at the closing quote, and broken where the literal cannot go on. -/
def literalPart : Production Char
  | [] => .broken []
  | '"' :: rest => .absent ('"' :: rest)
  | '\\' :: 'u' :: first :: second :: third :: fourth :: rest =>
    match codePoint? first second third fourth with
    | some letter => .taken letter rest
    | none => .broken ('\\' :: 'u' :: first :: second :: third :: fourth :: rest)
  | '\\' :: mark :: rest =>
    match Text.escape? mark with
    | some letter => .taken letter rest
    | none => .broken ('\\' :: mark :: rest)
  | letter :: rest =>
    if letter == '\\' || isLineEnd letter then .broken (letter :: rest) else .taken letter rest

/-- A text literal. -/
def textLiteral : Production Constant := do
  symbol '"'
  let letters ← repeated literalPart
  symbol '"'
  return .text (String.ofList letters)

/-- Productions one after the other, with a mark before and after them. The opening mark commits to
what is enclosed. -/
def enclosed (opening closing : Mark) (build : List α → Constant) (body : Production α) :
    Production Constant := do
  mark opening
  ignored
  committed do
    let inside ← repeated (spaced body)
    mark closing
    return build inside

/-- The member of an object. -/
def member (value : Production Constant) : Production (Name × Constant) := do
  let given ← someName
  ignored
  mark .colon
  ignored
  let constant ← value
  return (given, constant)

/-- A list of values. -/
def listValue (value : Production Constant) : Production Constant :=
  enclosed .openBracket .closeBracket .list value

/-- An object whose members have values. -/
def objectValue (value : Production Constant) : Production Constant :=
  enclosed .openBrace .closeBrace .object (member value)

/-- A word of the language or a member of an enumeration. -/
def word : Production Constant := do
  let given ← someName
  return .ofName given

/-- A constant, of at most the given number of levels. -/
def constant : Nat → Production Constant
  | 0 => fun _ => .unfinished
  | levels + 1 =>
    number <|> textLiteral <|> listValue (constant levels) <|> objectValue (constant levels) <|>
      word

/-! #### Arguments and fields -/

/-- The default of an argument, if there is one. The equals sign commits to it. -/
def defaultValue (levels : Nat) : Production (Option Constant) :=
  optional do
    ignored
    mark .equals
    ignored
    committed (constant levels)

/-- The definition of an argument. -/
def argument (levels : Nat) : Production InlineArgument := do
  let given ← someName
  ignored
  mark .colon
  ignored
  let type ← typeRef levels
  let default? ← defaultValue levels
  return ⟨given, type, default?⟩

/-- The definitions of arguments, of which there has to be at least one. -/
def argumentList (levels : Nat) : Production (List InlineArgument) := do
  let first ← spaced (argument levels)
  let others ← repeated (spaced (argument levels))
  return first :: others

/-- Definitions of arguments in parentheses. The opening one commits to them. -/
def arguments (levels : Nat) : Production (List InlineArgument) := do
  mark .openParenthesis
  ignored
  committed do
    let inside ← argumentList levels
    mark .closeParenthesis
    return inside

/-- The definition of a field. -/
def signature (levels : Nat) : Production Signature := do
  let given ← someName
  ignored
  let inside ← optional (arguments levels)
  return ⟨given, inside.getD []⟩

/-- A production that has the source to itself, but for ignored text around it. -/
def wholly (production : Production α) : Production α := do
  ignored
  let value ← production
  ignored
  atEnd
  return value

end Production

/-! ### Progress -/

/-- An outcome that belongs to a source: what is left of it, or the place of the failure, is one of
its ends, and there are fewer characters left than a limit. -/
inductive Outcome.EndsBelow {α : Type} (limit : Nat) (source : List Char) : Outcome α → Prop
  | taken {value : α} {rest : List Char} (suffix : rest <:+ source)
      (below : rest.length < limit) : EndsBelow limit source (.taken value rest)
  | absent {place : List Char} (suffix : place <:+ source) : EndsBelow limit source (.absent place)
  | broken {place : List Char} (suffix : place <:+ source) : EndsBelow limit source (.broken place)

namespace Outcome.EndsBelow

variable {α β : Type} {limit : Nat} {source : List Char} {outcome : Outcome α}

/-- An outcome below a limit is below every greater limit. -/
theorem mono {other : Nat} (ends : outcome.EndsBelow limit source) (le : limit ≤ other) :
    outcome.EndsBelow other source := by
  cases ends with
  | taken suffix below => exact .taken suffix (Nat.lt_of_lt_of_le below le)
  | absent suffix => exact .absent suffix
  | broken suffix => exact .broken suffix

/-- An outcome that belongs to an end of a source belongs to the source. -/
theorem within {part : List Char} (ends : outcome.EndsBelow limit part) (suffix : part <:+ source) :
    outcome.EndsBelow limit source := by
  cases ends with
  | taken inPart below => exact .taken (inPart.trans suffix) below
  | absent inPart => exact .absent (inPart.trans suffix)
  | broken inPart => exact .broken (inPart.trans suffix)

/-- What is left below a limit stays there if the parts that follow do not fall back. -/
theorem andThen {next : α → Production β} (ends : outcome.EndsBelow limit source)
    (keeps : ∀ value rest, rest <:+ source → rest.length < limit →
      (next value rest).EndsBelow (rest.length + 1) rest) :
    (outcome.andThen next).EndsBelow limit source := by
  cases ends with
  | taken suffix below => exact ((keeps _ _ suffix below).mono below).within suffix
  | absent suffix => exact .absent suffix
  | broken suffix => exact .broken suffix

theorem orElse {other : Outcome α} (ends : outcome.EndsBelow limit source)
    (others : other.EndsBelow limit source) : (outcome.orElse other).EndsBelow limit source := by
  cases ends with
  | taken suffix below => exact .taken suffix below
  | absent => exact others
  | broken suffix => exact .broken suffix

/-- A failure that becomes final stays in its place. -/
theorem committed (ends : outcome.EndsBelow limit source) :
    outcome.committed.EndsBelow limit source := by
  cases ends with
  | taken suffix below => exact .taken suffix below
  | absent suffix => exact .broken suffix
  | broken suffix => exact .broken suffix

end Outcome.EndsBelow

namespace Production

variable {α β : Type} {production first : Production α} {source rest place : List Char}
  {value : α} {limit : Nat}

/-- A production takes at least one character of a source, or fails within it. -/
def AdvancesOn (production : Production α) (source : List Char) : Prop :=
  (production source).EndsBelow source.length source

/-- A production takes the start of a source, which may be empty, or fails within it. -/
def KeepsOn (production : Production α) (source : List Char) : Prop :=
  (production source).EndsBelow (source.length + 1) source

theorem AdvancesOn.keepsOn (advances : production.AdvancesOn source) : production.KeepsOn source :=
  advances.mono (Nat.le_succ _)

/-- A production that takes something leaves less than the source. -/
theorem AdvancesOn.shorter (advances : production.AdvancesOn source)
    (taken : production source = .taken value rest) : rest.length < source.length := by
  rw [AdvancesOn, taken] at advances
  cases advances with
  | taken _ below => exact below

/-! #### Progress through combinations -/

/-- If the first part takes enough, the parts after it need only not to fall back. -/
theorem endsBelow_bind {next : α → Production β}
    (ends : (first source).EndsBelow limit source)
    (keeps : ∀ value rest, rest <:+ source → rest.length < limit → (next value).KeepsOn rest) :
    ((first >>= next) source).EndsBelow limit source :=
  ends.andThen keeps

/-- Both of two alternatives have to stay below the limit. -/
theorem endsBelow_orElse {second : Production α} (ends : (first source).EndsBelow limit source)
    (others : (second source).EndsBelow limit source) :
    ((first <|> second) source).EndsBelow limit source :=
  ends.orElse others

theorem keepsOn_pure (value : α) (source : List Char) :
    (pure value : Production α).KeepsOn source :=
  .taken (List.suffix_refl source) (Nat.lt_succ_self _)

theorem keepsOn_optional (keeps : production.KeepsOn source) :
    production.optional.KeepsOn source :=
  endsBelow_orElse (endsBelow_bind keeps fun _ rest _ _ => keepsOn_pure _ rest)
    (keepsOn_pure none source)

/-- As each turn takes a character, the turns last as long as there are more of them than
characters. -/
theorem keepsOn_turns {count : Nat}
    (advances : ∀ part, part <:+ source → production.AdvancesOn part)
    (enough : source.length < count) : (turns production count).KeepsOn source := by
  induction count generalizing source with
  | zero => exact absurd enough (Nat.not_lt_zero _)
  | succ count inductionHypothesis =>
    have turn := advances source (List.suffix_refl source)
    unfold KeepsOn turns
    unfold AdvancesOn at turn
    generalize production source = outcome at turn
    cases turn with
    | taken suffix below =>
      dsimp only
      rw [if_neg (Nat.ne_of_lt below)]
      have others := inductionHypothesis (fun part inRest => advances part (inRest.trans suffix))
        (Nat.lt_of_lt_of_le below (Nat.le_of_lt_succ enough))
      refine (others.andThen fun _ rest _ _ => keepsOn_pure _ rest).mono ?_ |>.within suffix
      exact Nat.succ_le_succ (Nat.le_of_lt below)
    | absent => exact keepsOn_pure [] source
    | broken suffix => exact .broken suffix

/-- A turn that takes something is followed by the other turns. -/
theorem turns_of_taken (taken : production source = .taken value rest)
    (shorter : rest.length < source.length) (more : Nat) :
    turns production (more + 1) source =
      (turns production more rest).andThen fun others => pure (value :: others) := by
  rw [turns, taken]
  exact if_neg (Nat.ne_of_lt shorter)

/-- The turns end where the production is absent. -/
theorem turns_of_absent (absent : production source = .absent place) (more : Nat) :
    turns production (more + 1) source = .taken [] source := by
  rw [turns, absent]

/-- The turns fail where the production fails. -/
theorem turns_of_broken (broken : production source = .broken place) (more : Nat) :
    turns production (more + 1) source = .broken place := by
  rw [turns, broken]

/-- A repetition has enough turns: one for each character, and one more. -/
theorem keepsOn_repeated (advances : ∀ part, part <:+ source → production.AdvancesOn part) :
    production.repeated.KeepsOn source :=
  keepsOn_turns advances (Nat.lt_succ_self _)

/-- Each turn has a character of its own, so there are no more values than characters that are
taken. -/
theorem length_le_of_turns {count : Nat} {values : List α}
    (advances : ∀ part, part <:+ source → production.AdvancesOn part)
    (taken : turns production count source = .taken values rest) :
    values.length + rest.length ≤ source.length := by
  induction count generalizing source values with
  | zero => cases taken
  | succ count inductionHypothesis =>
    have turn := advances source (List.suffix_refl source)
    unfold AdvancesOn at turn
    generalize isTurn : production source = outcome at turn
    cases turn with
    | @taken value behind suffix below =>
      rw [turns_of_taken isTurn below] at taken
      generalize isRun : turns production count behind = run at taken
      cases run with
      | taken others last =>
        cases taken
        have fewer := inductionHypothesis
          (fun part inRest => advances part (inRest.trans suffix)) isRun
        rw [List.length_cons]
        omega
      | _ => cases taken
    | absent suffix =>
      rw [turns_of_absent isTurn] at taken
      cases taken
      exact Nat.le_of_eq (Nat.zero_add _)
    | broken suffix =>
      rw [turns_of_broken isTurn] at taken
      cases taken

/-- Repeated, a production ends by itself, and no turn is without a character of its own: there are
as many characters taken as values, or more. -/
structure RepeatsOn (production : Production α) (source : List Char) : Prop where
  keeps : production.repeated.KeepsOn source
  length_le : ∀ values rest, production.repeated source = .taken values rest →
    values.length + rest.length ≤ source.length

theorem repeatsOn (advances : ∀ part, part <:+ source → production.AdvancesOn part) :
    production.RepeatsOn source :=
  ⟨keepsOn_repeated advances, fun _ _ taken => length_le_of_turns advances taken⟩

/-! #### Characters and ignored text -/

theorem advancesOn_symbol (letter : Char) (source : List Char) :
    (symbol letter).AdvancesOn source := by
  unfold AdvancesOn symbol
  split
  · exact .absent (List.suffix_refl _)
  · next first rest =>
    split
    · exact .taken (List.suffix_cons first rest) (Nat.lt_succ_self _)
    · exact .absent (List.suffix_refl _)

theorem advancesOn_mark (mark : Mark) (source : List Char) :
    (Production.mark mark).AdvancesOn source :=
  advancesOn_symbol mark.letter source

theorem keepsOn_atEnd (source : List Char) : atEnd.KeepsOn source := by
  unfold KeepsOn atEnd
  split
  · exact .taken (List.suffix_refl _) (Nat.lt_succ_self _)
  · exact .absent (List.suffix_refl _)

/-- Characters of a kind may be taken behind one that has been taken. -/
theorem endsBelow_dropWhile (value : α) (test : Char → Bool) (letter : Char) (rest : List Char) :
    (Outcome.taken value (rest.dropWhile test)).EndsBelow (letter :: rest).length
      (letter :: rest) :=
  have suffix := List.dropWhile_suffix test (l := rest)
  .taken (suffix.trans (List.suffix_cons letter rest)) (Nat.lt_succ_of_le suffix.length_le)

theorem advancesOn_blanks (source : List Char) : blanks.AdvancesOn source := by
  unfold AdvancesOn blanks
  split
  · exact .absent (List.suffix_refl _)
  · next letter rest =>
    split
    · exact endsBelow_dropWhile () isBlank letter rest
    · exact .absent (List.suffix_refl _)

theorem keepsOn_restOfLine (source : List Char) : restOfLine.KeepsOn source :=
  have suffix := List.dropWhile_suffix (fun letter => !isLineEnd letter) (l := source)
  .taken suffix (Nat.lt_succ_of_le suffix.length_le)

/-- An ignored item has at least one character. -/
theorem advancesOn_ignoredItem (source : List Char) : ignoredItem.AdvancesOn source := by
  refine endsBelow_orElse (advancesOn_blanks source) ?_
  refine endsBelow_orElse (advancesOn_symbol ',' source) ?_
  exact endsBelow_bind (advancesOn_symbol '#' source) fun _ rest _ _ => keepsOn_restOfLine rest

/-- Reading ignored text ends. There may be none. -/
theorem keepsOn_ignored (source : List Char) : ignored.KeepsOn source :=
  endsBelow_bind (keepsOn_repeated fun part _ => advancesOn_ignoredItem part)
    fun _ rest _ _ => keepsOn_pure () rest

/-- Ignored text that follows gives nothing back. -/
theorem advancesOn_spaced (advances : production.AdvancesOn source) :
    (spaced production).AdvancesOn source := by
  refine endsBelow_bind advances fun value rest _ _ => ?_
  exact endsBelow_bind (keepsOn_ignored rest) fun _ after _ _ => keepsOn_pure value after

/-- What ends on each part of a source ends on the whole, with ignored text around it. -/
theorem keepsOn_wholly (keeps : ∀ part, part <:+ source → production.KeepsOn part) :
    (wholly production).KeepsOn source := by
  refine endsBelow_bind (keepsOn_ignored source) fun _ start suffix _ => ?_
  refine endsBelow_bind (keeps start suffix) fun value rest _ _ => ?_
  refine endsBelow_bind (keepsOn_ignored rest) fun _ after _ _ => ?_
  exact endsBelow_bind (keepsOn_atEnd after) fun _ last _ _ => keepsOn_pure value last

/-! #### Names and types -/

/-- A name has at least its first character. -/
theorem advancesOn_someName (source : List Char) : someName.AdvancesOn source := by
  unfold AdvancesOn someName
  split
  · exact .absent (List.suffix_refl _)
  · next first rest =>
    split
    · exact endsBelow_dropWhile _ isNamePart first rest
    · exact .absent (List.suffix_refl _)

theorem keepsOn_marked (type : Bool → TypeRef) (source : List Char) :
    (marked type).KeepsOn source := by
  refine endsBelow_bind (keepsOn_optional ?_) fun _ rest _ _ => keepsOn_pure _ rest
  exact endsBelow_bind (keepsOn_ignored source)
    fun _ rest _ _ => (advancesOn_mark .exclamation rest).keepsOn

/-- A list takes its bracket, so the type inside is given less than the whole. -/
theorem advancesOn_listType {item : Production TypeRef}
    (advances : ∀ part, part.length < source.length → item.AdvancesOn part) :
    (listType item).AdvancesOn source := by
  refine endsBelow_bind (advancesOn_mark .openBracket source) fun _ behind _ shorter => ?_
  refine endsBelow_bind (keepsOn_ignored behind) fun _ start _ kept => ?_
  refine Outcome.EndsBelow.committed ?_
  have startsShorter := Nat.lt_of_lt_of_le kept shorter
  refine endsBelow_bind (advances start startsShorter).keepsOn fun type rest _ _ => ?_
  refine endsBelow_bind (keepsOn_ignored rest) fun _ closing _ _ => ?_
  refine endsBelow_bind (advancesOn_mark .closeBracket closing).keepsOn fun _ after _ _ => ?_
  exact keepsOn_pure _ after

/-- Each level begins behind a bracket, so there are fewer levels than characters. -/
theorem advancesOn_typeRef {levels : Nat} (enough : source.length < levels) :
    (typeRef levels).AdvancesOn source := by
  induction levels generalizing source with
  | zero => exact absurd enough (Nat.not_lt_zero _)
  | succ levels inductionHypothesis =>
    have named : namedType.AdvancesOn source :=
      endsBelow_bind (advancesOn_someName source) fun _ rest _ _ => keepsOn_pure _ rest
    have list : (listType (typeRef levels)).AdvancesOn source :=
      advancesOn_listType fun part shorter =>
        inductionHypothesis (Nat.lt_of_lt_of_le shorter (Nat.le_of_lt_succ enough))
    refine endsBelow_bind (endsBelow_orElse list named) fun type rest _ _ => ?_
    exact keepsOn_marked type rest

/-! #### Constants -/

theorem advancesOn_number (source : List Char) : number.AdvancesOn source := by
  unfold AdvancesOn number
  split
  · next digits rest read =>
    obtain ⟨text, rfl, -⟩ := number?_eq_some read
    exact .taken (List.suffix_append text rest) (number?_shorter read)
  · next digits rest read =>
    obtain ⟨text, rfl, -⟩ := number?_eq_some read
    exact .taken (List.suffix_append text rest) (number?_shorter read)
  · exact .absent (List.suffix_refl _)

/-- Each turn of reading a text literal takes at least one character. -/
theorem advancesOn_literalPart (source : List Char) : literalPart.AdvancesOn source := by
  unfold AdvancesOn literalPart
  split
  · exact .broken (List.suffix_refl _)
  · exact .absent (List.suffix_refl _)
  · next first second third fourth rest =>
    split
    · refine .taken (List.suffix_append ['\\', 'u', first, second, third, fourth] rest) ?_
      simp only [List.length_cons]
      omega
    · exact .broken (List.suffix_refl _)
  · next mark rest _ =>
    split
    · refine .taken (List.suffix_append ['\\', mark] rest) ?_
      simp only [List.length_cons]
      omega
    · exact .broken (List.suffix_refl _)
  · next letter rest _ _ _ =>
    split
    · exact .broken (List.suffix_refl _)
    · exact .taken (List.suffix_cons letter rest) (Nat.lt_succ_self _)

/-- A text literal takes its first quote, and reading its characters ends. -/
theorem advancesOn_textLiteral (source : List Char) : textLiteral.AdvancesOn source := by
  refine endsBelow_bind (advancesOn_symbol '"' source) fun _ behind _ _ => ?_
  refine endsBelow_bind (keepsOn_repeated fun part _ => advancesOn_literalPart part) ?_
  intro letters closing _ _
  refine endsBelow_bind (advancesOn_symbol '"' closing).keepsOn fun _ after _ _ => ?_
  exact keepsOn_pure _ after

/-- What stands behind an opening mark is shorter than the whole. -/
theorem advancesOn_enclosed {opening closing : Mark} {build : List α → Constant}
    (advances : ∀ part, part.length < source.length → production.AdvancesOn part) :
    (enclosed opening closing build production).AdvancesOn source := by
  refine endsBelow_bind (advancesOn_mark opening source) fun _ behind _ shorter => ?_
  refine endsBelow_bind (keepsOn_ignored behind) fun _ start _ kept => ?_
  refine Outcome.EndsBelow.committed ?_
  have inside (part : List Char) (suffix : part <:+ start) : (spaced production).AdvancesOn part :=
    advancesOn_spaced (advances part
      (Nat.lt_of_le_of_lt suffix.length_le (Nat.lt_of_lt_of_le kept shorter)))
  refine endsBelow_bind (keepsOn_repeated inside) fun values rest _ _ => ?_
  exact endsBelow_bind (advancesOn_mark closing rest).keepsOn
    fun _ after _ _ => keepsOn_pure _ after

/-- A member takes its name, so its value is given less than the whole. -/
theorem advancesOn_member {value : Production Constant}
    (advances : ∀ part, part.length < source.length → value.AdvancesOn part) :
    (member value).AdvancesOn source := by
  refine endsBelow_bind (advancesOn_someName source) fun given behindName _ shorter => ?_
  refine endsBelow_bind (keepsOn_ignored behindName) fun _ atColon _ kept => ?_
  refine endsBelow_bind (advancesOn_mark .colon atColon).keepsOn fun _ behindColon _ further => ?_
  refine endsBelow_bind (keepsOn_ignored behindColon) fun _ atValue _ keptAgain => ?_
  refine endsBelow_bind (advances atValue (by omega)).keepsOn fun constant rest _ _ => ?_
  exact keepsOn_pure _ rest

/-- Each level begins behind a bracket or brace, so there are fewer levels than characters. -/
theorem advancesOn_constant {levels : Nat} (enough : source.length < levels) :
    (constant levels).AdvancesOn source := by
  induction levels generalizing source with
  | zero => exact absurd enough (Nat.not_lt_zero _)
  | succ levels inductionHypothesis =>
    have nested (part : List Char) (shorter : part.length < source.length) :
        (constant levels).AdvancesOn part :=
      inductionHypothesis (Nat.lt_of_lt_of_le shorter (Nat.le_of_lt_succ enough))
    refine endsBelow_orElse (advancesOn_number source) ?_
    refine endsBelow_orElse (advancesOn_textLiteral source) ?_
    refine endsBelow_orElse (advancesOn_enclosed nested) ?_
    refine endsBelow_orElse (advancesOn_enclosed fun part shorter => ?_) ?_
    · exact advancesOn_member fun inner innerShorter =>
        nested inner (Nat.lt_trans innerShorter shorter)
    · exact endsBelow_bind (advancesOn_someName source) fun _ rest _ _ => keepsOn_pure _ rest

/-! #### Arguments and fields -/

/-- A default may be left out. -/
theorem keepsOn_defaultValue {levels : Nat} (enough : source.length < levels) :
    (defaultValue levels).KeepsOn source := by
  refine keepsOn_optional (endsBelow_bind (keepsOn_ignored source) fun _ atEquals _ _ => ?_)
  refine endsBelow_bind (advancesOn_mark .equals atEquals).keepsOn fun _ behindEquals _ _ => ?_
  refine endsBelow_bind (keepsOn_ignored behindEquals) fun _ atDefault _ _ => ?_
  exact (advancesOn_constant (by omega)).keepsOn.committed

/-- An argument takes its name, so its type and its default are given less than the whole. -/
theorem advancesOn_argument {levels : Nat} (enough : source.length < levels) :
    (argument levels).AdvancesOn source := by
  refine endsBelow_bind (advancesOn_someName source) fun given behindName _ shorter => ?_
  refine endsBelow_bind (keepsOn_ignored behindName) fun _ atColon _ kept => ?_
  refine endsBelow_bind (advancesOn_mark .colon atColon).keepsOn fun _ behindColon _ further => ?_
  refine endsBelow_bind (keepsOn_ignored behindColon) fun _ atType _ keptAgain => ?_
  refine endsBelow_bind (advancesOn_typeRef (by omega)).keepsOn fun type behindType _ _ => ?_
  refine endsBelow_bind (keepsOn_defaultValue (by omega)) fun _ rest _ _ => ?_
  exact keepsOn_pure _ rest

theorem keepsOn_argumentList {levels : Nat} (enough : source.length < levels) :
    (argumentList levels).KeepsOn source := by
  refine endsBelow_bind (advancesOn_spaced (advancesOn_argument enough)).keepsOn ?_
  intro first behind _ kept
  refine endsBelow_bind (keepsOn_repeated fun part suffix => ?_)
    fun _ rest _ _ => keepsOn_pure _ rest
  have shorter := suffix.length_le
  exact advancesOn_spaced (advancesOn_argument (by omega))

/-- Arguments take their parenthesis, so each of them is given less than the whole. -/
theorem advancesOn_arguments {levels : Nat} (enough : source.length < levels) :
    (arguments levels).AdvancesOn source := by
  refine endsBelow_bind (advancesOn_mark .openParenthesis source) fun _ behind _ _ => ?_
  refine endsBelow_bind (keepsOn_ignored behind) fun _ start _ _ => ?_
  refine Outcome.EndsBelow.committed (endsBelow_bind (keepsOn_argumentList (by omega)) ?_)
  intro inside closing _ _
  exact endsBelow_bind (advancesOn_mark .closeParenthesis closing).keepsOn
    fun _ after _ _ => keepsOn_pure _ after

/-- A field takes its name, whether or not arguments follow. -/
theorem advancesOn_signature {levels : Nat} (enough : source.length < levels) :
    (signature levels).AdvancesOn source := by
  refine endsBelow_bind (advancesOn_someName source) fun given behindName _ _ => ?_
  refine endsBelow_bind (keepsOn_ignored behindName) fun _ opening _ _ => ?_
  refine endsBelow_bind (keepsOn_optional (advancesOn_arguments (by omega)).keepsOn) ?_
  exact fun _ rest _ _ => keepsOn_pure _ rest

end Production

end SchemaAssembly.Grammar
