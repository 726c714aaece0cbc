/-
This file says where the readers of tokens stop at a mistake: never behind it. The tokens up to
there can be completed, for a list or an object that is open can be closed, a member without a
value can be given one, and a type, an argument or a definition that is begun can be ended. A
mistake within a text is no exception, as the text can be closed there.

The reader of constants keeps the position of a member for the case that its value is missing. That
this is a position in what it has taken is an invariant of its steps.
-/

import SchemaAssembly.Proofs.Grammar.LineBreak
import SchemaAssembly.Proofs.Grammar.Signature

namespace SchemaAssembly.Grammar

/-! ### Phrases and their beginnings -/

/-- Some tokens can be written one after the other. -/
def AreSpelled (tokens : List Token) : Prop :=
  ∃ source, Laid tokens source

/-- Some tokens can be completed to a phrase of the given kind. -/
def IsViable (isPhrase : List Token → Prop) (tokens : List Token) : Prop :=
  ∃ ending, AreSpelled ending ∧ isPhrase (tokens ++ ending)

/-- Where a reader of phrases of the given kind stops: in front of a token, or within a text. What
stands before can be completed, with the text for any content that it may come to have. -/
inductive StopsAt (isPhrase : List Token → Prop) (placed : List Placed) : List Char → Prop
  | before {used rest : List Placed} (split : placed = used ++ rest)
      (viable : IsViable isPhrase (used.map Placed.token)) :
      StopsAt isPhrase placed (position rest)
  | within {used rest : List Placed} {failure source : List Char}
      (split : placed = used ++ ⟨.brokenText failure, source⟩ :: rest)
      (viable : ∀ content, IsViable isPhrase (used.map Placed.token ++ [.text content])) :
      StopsAt isPhrase placed failure

theorem areSpelled_nil : AreSpelled [] :=
  ⟨[], .nil .nil⟩

/-- Tokens that can be written can be written one behind the other. -/
theorem AreSpelled.append {tokens others : List Token} (first : AreSpelled tokens)
    (second : AreSpelled others) : AreSpelled (tokens ++ others) := by
  obtain ⟨source, laid⟩ := first
  obtain ⟨rest, laidRest⟩ := second
  exact ⟨_, laid.append_line laidRest⟩

theorem areSpelled_singleton {token : Token} {text : List Char} (spelled : Spells token text) :
    AreSpelled [token] :=
  ⟨text, (LaidBare.token spelled).laid⟩

theorem areSpelled_mark (mark : Mark) {tokens : List Token} (areSpelled : AreSpelled tokens) :
    AreSpelled (.mark mark :: tokens) := by
  have spelled : Spells (.mark mark) [mark.letter] := rfl
  exact (areSpelled_singleton spelled).append areSpelled

theorem areSpelled_name (name : Name) {tokens : List Token} (areSpelled : AreSpelled tokens) :
    AreSpelled (.name name :: tokens) := by
  have spelled : Spells (.name name) name.letters := rfl
  exact (areSpelled_singleton spelled).append areSpelled

section Phrases

variable {isPhrase isWhole : List Token → Prop} {placed rest : List Placed}
  {tokens ending : List Token}

/-- A phrase is completed by nothing. -/
theorem isViable_of_isPhrase (phrase : isPhrase tokens) : IsViable isPhrase tokens := by
  refine ⟨[], areSpelled_nil, ?_⟩
  rwa [List.append_nil]

/-- Without its last tokens, what can be completed can still be completed. -/
theorem IsViable.of_append (viable : IsViable isPhrase (tokens ++ ending))
    (spelled : AreSpelled ending) : IsViable isPhrase tokens := by
  obtain ⟨further, furtherSpelled, phrase⟩ := viable
  refine ⟨ending ++ further, spelled.append furtherSpelled, ?_⟩
  rwa [← List.append_assoc]

/-- What can be completed to a phrase can be completed to what this phrase is a part of. -/
theorem IsViable.inside {front : List Token} (viable : IsViable isPhrase tokens)
    (spelled : AreSpelled ending)
    (part : ∀ phrase, isPhrase phrase → isWhole (front ++ (phrase ++ ending))) :
    IsViable isWhole (front ++ tokens) := by
  obtain ⟨further, furtherSpelled, phrase⟩ := viable
  have whole : IsViable isWhole (front ++ tokens ++ further ++ ending) := by
    refine isViable_of_isPhrase ?_
    rw [List.append_assoc, List.append_assoc, ← List.append_assoc tokens]
    exact part _ phrase
  exact (whole.of_append spelled).of_append furtherSpelled

/-- A reader may stop behind tokens that can be completed. -/
theorem Uses.stopsAt (uses : Uses placed tokens rest) (viable : IsViable isPhrase tokens) :
    StopsAt isPhrase placed (position rest) := by
  obtain ⟨used, split, rfl⟩ := uses
  exact .before split viable

theorem stopsAt_position (placed : List Placed) (viable : IsViable isPhrase []) :
    StopsAt isPhrase placed (position placed) :=
  (uses_nil_iff.mpr rfl : Uses placed [] placed).stopsAt viable

/-- A reader of a part stops where a reader of the whole may. -/
theorem StopsAt.inside {stop : List Char} (stops : StopsAt isPhrase rest stop)
    (uses : Uses placed tokens rest) (spelled : AreSpelled ending)
    (part : ∀ phrase, isPhrase phrase → isWhole (tokens ++ (phrase ++ ending))) :
    StopsAt isWhole placed stop := by
  obtain ⟨front, rfl, rfl⟩ := uses
  cases stops with
  | before split viable =>
    refine .before (by rw [split, List.append_assoc]) ?_
    rw [List.map_append]
    exact viable.inside spelled part
  | within split viable =>
    refine .within (by rw [split, List.append_assoc]) fun content => ?_
    rw [List.map_append, List.append_assoc]
    exact (viable content).inside spelled part

end Phrases

/-! ### Constants -/

/-- The tokens of a constant. -/
def IsConstant (tokens : List Token) : Prop :=
  ∃ constant : Constant, constant.IsWritable ∧ tokens = constant.tokens

open Constant

/-- The constant that comes of what is open if nothing but what is missing follows. -/
def Awaiting.closed : Awaiting → Constant
  | .value => .null
  | .item before => .list before.reverse
  | .member before => .object before.reverse
  | .colon before name _ => .object ((name, .null) :: before).reverse

/-- What is open is closed by tokens that are written behind it. -/
theorem Awaiting.tokens_closed (awaiting : Awaiting) :
    ∃ ending, AreSpelled ending ∧ awaiting.closed.tokens = awaiting.tokens ++ ending := by
  cases awaiting with
  | value => exact ⟨[.name .nullWord], areSpelled_name _ areSpelled_nil, rfl⟩
  | item before => exact ⟨[.mark .closeBracket], areSpelled_mark _ areSpelled_nil, rfl⟩
  | member before => exact ⟨[.mark .closeBrace], areSpelled_mark _ areSpelled_nil, rfl⟩
  | colon before name start =>
    refine ⟨[.mark .colon, .name .nullWord, .mark .closeBrace], ?_, ?_⟩
    · exact areSpelled_mark _ (areSpelled_name _ (areSpelled_mark _ areSpelled_nil))
    · rw [closed, Constant.tokens, memberTokens_concat, Awaiting.tokens]
      simp only [Constant.tokens, List.cons_append, List.append_assoc, List.nil_append]

theorem Awaiting.isWritable_closed {awaiting : Awaiting} (writable : awaiting.IsWritable) :
    awaiting.closed.IsWritable := by
  cases awaiting with
  | value => trivial
  | item before => exact writable
  | member before => exact writable
  | colon before name start =>
    show MembersAreWritable ((name, .null) :: before).reverse
    rw [List.reverse_cons, membersAreWritable_append]
    exact ⟨writable, trivial, trivial⟩

/-- Around a constant everything that is open can be closed, from the innermost on. -/
theorem isViable_taken {constant : Constant} {pending : List Frame}
    (writable : constant.IsWritable) (outerWritable : ∀ frame ∈ pending, frame.IsWritable) :
    IsViable IsConstant (taken pending ++ constant.tokens) := by
  induction pending generalizing constant with
  | nil => exact isViable_of_isPhrase ⟨constant, writable, List.nil_append _⟩
  | cons frame outer inductionHypothesis =>
    have reached := reached_deliver writable outerWritable
    have delivered : ∃ awaiting, deliver constant (frame :: outer) = .proceed awaiting outer := by
      cases frame <;> exact ⟨_, rfl⟩
    obtain ⟨awaiting, proceeds⟩ := delivered
    rw [proceeds] at reached
    obtain ⟨isTaken, nextWritable, nextOuter⟩ := reached
    obtain ⟨ending, spelled, split⟩ := awaiting.tokens_closed
    have viable := inductionHypothesis (Awaiting.isWritable_closed nextWritable) nextOuter
    rw [split, ← List.append_assoc, isTaken] at viable
    exact viable.of_append spelled

/-- The position that is kept for the case that the value of a member is missing. -/
def memberStart? : Awaiting → List Frame → Option (List Char)
  | .value, .member _ _ start :: _ => some start
  | .colon _ _ start, _ => some start
  | _, _ => none

theorem memberStart?_of_deliver {constant : Constant} {pending stack : List Frame}
    {next : Awaiting} (proceeds : deliver constant pending = .proceed next stack) :
    memberStart? next stack = none := by
  unfold deliver at proceeds
  split at proceeds <;> cases proceeds <;> rfl

theorem memberStart?_of_beginValue {placed : Placed} {pending stack : List Frame}
    {next : Awaiting} (proceeds : beginValue placed pending = .proceed next stack) :
    memberStart? next stack = none := by
  unfold beginValue at proceeds
  split at proceeds
  · exact memberStart?_of_deliver proceeds
  · exact memberStart?_of_deliver proceeds
  · exact memberStart?_of_deliver proceeds
  · exact memberStart?_of_deliver proceeds
  all_goals cases proceeds <;> rfl

/-- A state stands for the tokens in front: it holds what they say, and the position that it keeps
is that of a name among them. -/
structure StandsFor (front : List Placed) (awaiting : Awaiting) (pending : List Frame) : Prop where
  isTaken : taken pending ++ awaiting.tokens = front.map Placed.token
  writable : awaiting.IsWritable
  outerWritable : ∀ frame ∈ pending, frame.IsWritable
  kept : ∀ start ∈ memberStart? awaiting pending, ∃ first name more,
    front = first ++ ⟨.name name, start⟩ :: more ∧ AreSpelled (more.map Placed.token)

namespace StandsFor

variable {front : List Placed} {awaiting : Awaiting} {pending : List Frame}

/-- At the start nothing is open. -/
theorem initial : StandsFor [] .value [] where
  isTaken := rfl
  writable := trivial
  outerWritable := List.forall_mem_nil _
  kept := nofun

/-- What has been taken can be completed to a constant. -/
theorem isViable (stands : StandsFor front awaiting pending) :
    IsViable IsConstant (front.map Placed.token) := by
  obtain ⟨ending, spelled, split⟩ := awaiting.tokens_closed
  have viable := isViable_taken (Awaiting.isWritable_closed stands.writable) stands.outerWritable
  rw [split, ← List.append_assoc, stands.isTaken] at viable
  exact viable.of_append spelled

/-- A member is begun by its name and goes on with a colon. -/
theorem kept_step {placed : Placed} {next : Awaiting} {stack : List Frame}
    (stands : StandsFor front awaiting pending)
    (proceeds : Grammar.step awaiting pending placed = .proceed next stack) :
    ∀ start ∈ memberStart? next stack, ∃ first name more,
      front ++ [placed] = first ++ ⟨.name name, start⟩ :: more ∧
        AreSpelled (more.map Placed.token) := by
  have ofNone (keepsNone : memberStart? next stack = none) :
      ∀ start ∈ memberStart? next stack, ∃ first name more,
        front ++ [placed] = first ++ ⟨.name name, start⟩ :: more ∧
          AreSpelled (more.map Placed.token) := by
    rw [keepsNone]
    exact nofun
  obtain ⟨token, source⟩ := placed
  cases awaiting with
  | value => exact ofNone (memberStart?_of_beginValue proceeds)
  | item before =>
    rw [Grammar.step] at proceeds
    split at proceeds
    · exact ofNone (memberStart?_of_deliver proceeds)
    · exact ofNone (memberStart?_of_beginValue proceeds)
  | member before =>
    rw [Grammar.step] at proceeds
    split at proceeds
    · exact ofNone (memberStart?_of_deliver proceeds)
    · next name isName =>
      cases isName
      cases proceeds
      rintro _ ⟨⟩
      exact ⟨front, name, [], rfl, areSpelled_nil⟩
    · cases proceeds
  | colon before name start =>
    rw [Grammar.step] at proceeds
    split at proceeds
    · next isColon =>
      cases isColon
      cases proceeds
      rintro _ ⟨⟩
      obtain ⟨first, name, more, rfl, spelled⟩ := stands.kept start rfl
      refine ⟨first, name, more ++ [⟨.mark .colon, source⟩], List.append_assoc _ _ _, ?_⟩
      rw [List.map_append]
      exact spelled.append (areSpelled_mark .colon areSpelled_nil)
    · cases proceeds

/-- Each step takes its token into account. -/
theorem step {placed : Placed} {next : Awaiting} {stack : List Frame}
    (stands : StandsFor front awaiting pending)
    (proceeds : Grammar.step awaiting pending placed = .proceed next stack) :
    StandsFor (front ++ [placed]) next stack := by
  have reached := reached_step placed stands.writable stands.outerWritable
  rw [proceeds, stands.isTaken] at reached
  obtain ⟨isTaken, writable, outerWritable⟩ := reached
  refine ⟨?_, writable, outerWritable, stands.kept_step proceeds⟩
  rw [isTaken, List.map_append, List.map_singleton]

/-- Where a value is missing, or anything else that has to follow, the reader stops in front of
what is there instead, or of the member to which it belongs. -/
theorem stopsAt (stands : StandsFor front awaiting pending) (rest : List Placed) :
    StopsAt IsConstant (front ++ rest) ((memberStart? awaiting pending).getD (position rest)) := by
  cases keeps : memberStart? awaiting pending with
  | none => exact .before rfl stands.isViable
  | some start =>
    obtain ⟨first, name, more, rfl, spelled⟩ := stands.kept start keeps
    have viable := stands.isViable
    rw [List.map_append, List.map_cons] at viable
    have split : first ++ ⟨.name name, start⟩ :: more ++ rest =
        first ++ (⟨.name name, start⟩ :: more ++ rest) := List.append_assoc _ _ _
    exact .before split (viable.of_append (areSpelled_name name spelled))

/-- Within a text that stands where a value may, the reader stops where the text breaks off. -/
theorem stopsAt_failure (stands : StandsFor front awaiting pending)
    (value : awaiting = .value ∨ ∃ before, awaiting = .item before) (failure source : List Char)
    (rest : List Placed) :
    StopsAt IsConstant (front ++ ⟨.brokenText failure, source⟩ :: rest) failure := by
  refine .within rfl fun content => ?_
  have writable : (Constant.text content).IsWritable := trivial
  rw [← stands.isTaken]
  rcases value with rfl | ⟨before, rfl⟩
  · rw [Awaiting.tokens, List.append_nil]
    exact isViable_taken writable stands.outerWritable
  · have framesWritable : ∀ frame ∈ .item before :: pending, frame.IsWritable :=
      List.forall_mem_cons.mpr ⟨stands.writable, stands.outerWritable⟩
    exact isViable_taken writable framesWritable

end StandsFor

/-- A whole constant is never refused: whatever is open takes it. -/
theorem deliver_ne_reject (constant : Constant) (pending : List Frame) (stop : List Char) :
    deliver constant pending ≠ .reject stop := by
  intro same
  unfold deliver at same
  split at same <;> cases same

/-- A mistake is where something is missing, or within a text in place of a value. -/
theorem beginValue_eq_reject {placed : Placed} {pending : List Frame} {stop : List Char}
    (rejects : beginValue placed pending = .reject stop) :
    stop = missingValue placed.source pending ∨ placed.token = .brokenText stop := by
  unfold beginValue at rejects
  split at rejects
  · exact absurd rejects (deliver_ne_reject _ _ _)
  · exact absurd rejects (deliver_ne_reject _ _ _)
  · exact absurd rejects (deliver_ne_reject _ _ _)
  · exact absurd rejects (deliver_ne_reject _ _ _)
  · cases rejects
  · cases rejects
  · next isBroken =>
    cases rejects
    exact Or.inr isBroken
  · cases rejects
    exact Or.inl rfl
  · cases rejects
    exact Or.inl rfl

/-- A missing value is reported at the name of its member, if it has one, else in its own place. -/
theorem missingValue_eq (found : List Char) (pending : List Frame) :
    missingValue found pending = (memberStart? .value pending).getD found := by
  match pending with
  | [] => rfl
  | .item _ :: _ => rfl
  | .member _ _ _ :: _ => rfl

/-- A step fails at the name of a member that lacks its value, at the token itself, or within a text
in place of a value. -/
theorem step_eq_reject {awaiting : Awaiting} {pending : List Frame} {placed : Placed}
    {stop : List Char} (rejects : step awaiting pending placed = .reject stop) :
    stop = (memberStart? awaiting pending).getD placed.source ∨
      placed.token = .brokenText stop ∧
        (awaiting = .value ∨ ∃ before, awaiting = .item before) := by
  cases awaiting with
  | value =>
    rw [← missingValue_eq]
    exact (beginValue_eq_reject rejects).imp_right fun isBroken => ⟨isBroken, Or.inl rfl⟩
  | item before =>
    rw [step] at rejects
    split at rejects
    · exact absurd rejects (deliver_ne_reject _ _ _)
    · exact (beginValue_eq_reject rejects).imp_right fun isBroken => ⟨isBroken, Or.inr ⟨_, rfl⟩⟩
  | member before =>
    rw [step] at rejects
    split at rejects
    · exact absurd rejects (deliver_ne_reject _ _ _)
    · cases rejects
    · cases rejects
      exact Or.inl rfl
  | colon before name start =>
    rw [step] at rejects
    split at rejects
    · cases rejects
    · cases rejects
      exact Or.inl rfl

/-- Where the tokens run out, the failure is at the name of a member that lacks its value, or at the
end. -/
theorem unfinished_eq (awaiting : Awaiting) (pending : List Frame) :
    unfinished awaiting pending = (memberStart? awaiting pending).getD [] := by
  cases awaiting with
  | value => exact missingValue_eq [] pending
  | _ => rfl

theorem stopsAt_of_readFrom {front placed : List Placed} {awaiting : Awaiting}
    {pending : List Frame} {stop : List Char} (stands : StandsFor front awaiting pending)
    (read : readFrom awaiting pending placed = .error stop) :
    StopsAt IsConstant (front ++ placed) stop := by
  induction placed generalizing front awaiting pending with
  | nil =>
    cases read
    rw [unfinished_eq]
    exact stands.stopsAt []
  | cons first rest inductionHypothesis =>
    unfold readFrom at read
    split at read
    · next proceeds =>
      rw [List.append_cons]
      exact inductionHypothesis (stands.step proceeds) read
    · cases read
    · next rejects =>
      cases read
      obtain ⟨token, source⟩ := first
      rcases step_eq_reject rejects with rfl | ⟨rfl, value⟩
      · exact stands.stopsAt (⟨token, source⟩ :: rest)
      · exact stands.stopsAt_failure value stop source rest

/-- Where reading a constant fails, what stands before can be completed to a constant. -/
theorem stopsAt_of_readConstant {placed : List Placed} {stop : List Char}
    (read : readConstant placed = .error stop) : StopsAt IsConstant placed stop :=
  stopsAt_of_readFrom .initial read

/-! ### Types -/

/-- The tokens of a reference to a type. -/
def IsType (tokens : List Token) : Prop :=
  ∃ type : TypeRef, tokens = type.tokens

/-- Nothing was read, and this is the position that is told. -/
def Reading.FailsAt {α : Type} (reading : Reading α) (stop : List Char) : Prop :=
  reading = .missing stop ∨ reading = .broken stop

/-- Any name will do where a name is missing. -/
theorem isViable_name_type : IsViable IsType [] :=
  ⟨[.name .nullWord], areSpelled_name _ areSpelled_nil, .named .nullWord false, rfl⟩

theorem withMark_ne_failure {type : Bool → TypeRef} {placed : List Placed} {stop : List Char} :
    ¬(withMark type placed).FailsAt stop := by
  unfold withMark
  split <;> rintro (fails | fails) <;> cases fails

/-- Where reading a type fails, what stands before can be completed to a type. -/
theorem stopsAt_of_readType {placed : List Placed} {stop : List Char}
    (fails : (readType placed).FailsAt stop) : StopsAt IsType placed stop := by
  induction placed generalizing stop with
  | nil =>
    obtain ⟨⟨⟩⟩ | ⟨⟨⟩⟩ := fails
    exact stopsAt_position [] isViable_name_type
  | cons first others inductionHypothesis =>
    unfold readType at fails
    split at fails
    · exact absurd fails withMark_ne_failure
    · next opening rest same =>
      obtain ⟨rfl, rfl⟩ := List.cons.inj same
      have inBrackets {place : List Char} (stops : StopsAt IsType others place) :
          StopsAt IsType (⟨.mark .openBracket, opening⟩ :: others) place := by
        have uses : Uses (⟨.mark .openBracket, opening⟩ :: others) [.mark .openBracket] others :=
          uses_singleton_iff.mpr ⟨opening, rfl⟩
        refine stops.inside uses (areSpelled_mark .closeBracket areSpelled_nil) ?_
        rintro _ ⟨item, rfl⟩
        exact ⟨.list item false, rfl⟩
      split at fails
      · exact absurd fails withMark_ne_failure
      · next item after unclosed inner =>
        obtain ⟨⟨⟩⟩ | ⟨⟨⟩⟩ := fails
        obtain ⟨uses, -⟩ := readType_eq_read_iff.mp inner
        exact inBrackets (uses.stopsAt (isViable_of_isPhrase ⟨item, rfl⟩))
      · next inner =>
        obtain ⟨⟨⟩⟩ | ⟨⟨⟩⟩ := fails
        exact inBrackets (inductionHypothesis (Or.inl inner))
      · next inner =>
        obtain ⟨⟨⟩⟩ | ⟨⟨⟩⟩ := fails
        exact inBrackets (inductionHypothesis (Or.inr inner))
    · obtain ⟨⟨⟩⟩ | ⟨⟨⟩⟩ := fails
      exact stopsAt_position _ isViable_name_type

/-! ### Arguments -/

/-- The tokens of the definition of an argument. -/
def IsArgument (tokens : List Token) : Prop :=
  ∃ argument : InlineArgument, argument.IsWritable ∧ tokens = argument.tokens

/-- The tokens of the definitions of some arguments, at least one. -/
def IsArgumentList (tokens : List Token) : Prop :=
  ∃ arguments : List InlineArgument, arguments ≠ [] ∧
    (∀ argument ∈ arguments, argument.IsWritable) ∧
    tokens = arguments.flatMap InlineArgument.tokens

/-- A name, a colon and another name make up an argument. -/
theorem isViable_name_argument (name : Name) : IsViable IsArgument [.name name] := by
  refine ⟨[.mark .colon, .name .nullWord], ?_, ?_⟩
  · exact areSpelled_mark _ (areSpelled_name _ areSpelled_nil)
  · exact ⟨⟨name, .named .nullWord false, none⟩, nofun, rfl⟩

theorem isViable_nil_argument : IsViable IsArgument [] := by
  have viable := isViable_name_argument .nullWord
  rw [← List.nil_append [_]] at viable
  exact viable.of_append (areSpelled_name _ areSpelled_nil)

theorem isArgument_of_isType (name : Name) {phrase : List Token} (isType : IsType phrase) :
    IsArgument ([.name name, .mark .colon] ++ (phrase ++ [])) := by
  obtain ⟨type, rfl⟩ := isType
  exact ⟨⟨name, type, none⟩, nofun, rfl⟩

theorem isArgument_of_isConstant {name : Name} {type : TypeRef} {phrase : List Token}
    (isConstant : IsConstant phrase) :
    IsArgument ([.name name, .mark .colon] ++ (type.tokens ++ [.mark .equals]) ++
      (phrase ++ [])) := by
  obtain ⟨constant, writable, rfl⟩ := isConstant
  refine ⟨⟨name, type, some constant⟩, ?_, ?_⟩
  · rintro _ ⟨⟩
    exact writable
  · rw [List.append_nil, InlineArgument.tokens, InlineArgument.defaultTokens]
    simp only [List.cons_append, List.append_assoc, List.nil_append]

/-- A default goes wrong in its constant. -/
theorem exists_of_withDefault_failsAt {name : Name} {type : TypeRef} {placed : List Placed}
    {stop : List Char} (fails : (withDefault name type placed).FailsAt stop) :
    ∃ rest, Uses placed [.mark .equals] rest ∧ readConstant rest = .error stop := by
  unfold withDefault at fails
  split at fails
  · next rest =>
    split at fails
    · obtain ⟨⟨⟩⟩ | ⟨⟨⟩⟩ := fails
    · next inner =>
      obtain ⟨⟨⟩⟩ | ⟨⟨⟩⟩ := fails
      exact ⟨rest, uses_singleton_iff.mpr ⟨_, rfl⟩, inner⟩
  · obtain ⟨⟨⟩⟩ | ⟨⟨⟩⟩ := fails

/-- Where reading an argument fails, what stands before can be completed to an argument. -/
theorem stopsAt_of_readArgument {placed : List Placed} {stop : List Char}
    (fails : (readArgument placed).FailsAt stop) : StopsAt IsArgument placed stop := by
  unfold readArgument at fails
  split at fails
  · next name nameSource colonSource rest =>
    have usesColon : Uses (⟨.name name, nameSource⟩ :: ⟨.mark .colon, colonSource⟩ :: rest)
        [.name name, .mark .colon] rest := ⟨[_, _], rfl, rfl⟩
    have inType (typeFails : (readType rest).FailsAt stop) :=
      (stopsAt_of_readType typeFails).inside usesColon areSpelled_nil fun _ =>
        isArgument_of_isType name
    split at fails
    · next type after inner =>
      obtain ⟨usesType, -⟩ := readType_eq_read_iff.mp inner
      obtain ⟨others, usesEquals, constantFails⟩ := exists_of_withDefault_failsAt fails
      have uses := uses_append_iff.mpr
        ⟨_, usesColon, uses_append_iff.mpr ⟨_, usesType, usesEquals⟩⟩
      exact (stopsAt_of_readConstant constantFails).inside uses areSpelled_nil fun _ =>
        isArgument_of_isConstant
    · next inner =>
      obtain ⟨⟨⟩⟩ | ⟨⟨⟩⟩ := fails
      exact inType (Or.inl inner)
    · next inner =>
      obtain ⟨⟨⟩⟩ | ⟨⟨⟩⟩ := fails
      exact inType (Or.inr inner)
  · next name nameSource rest _ =>
    obtain ⟨⟨⟩⟩ | ⟨⟨⟩⟩ := fails
    have uses : Uses (⟨.name name, nameSource⟩ :: rest) [.name name] rest :=
      uses_singleton_iff.mpr ⟨nameSource, rfl⟩
    exact uses.stopsAt (isViable_name_argument name)
  · obtain ⟨⟨⟩⟩ | ⟨⟨⟩⟩ := fails
    exact stopsAt_position _ isViable_nil_argument

/-! ### Lists of arguments -/

theorem isArgumentList_of_isArgument {phrase : List Token} (isArgument : IsArgument phrase) :
    IsArgumentList ([] ++ (phrase ++ [])) := by
  obtain ⟨argument, writable, rfl⟩ := isArgument
  refine ⟨[argument], List.cons_ne_nil _ _, List.forall_mem_singleton.mpr writable, ?_⟩
  rw [List.flatMap_singleton, List.append_nil, List.nil_append]

theorem isArgumentList_cons {argument : InlineArgument} (writable : argument.IsWritable)
    {phrase : List Token} (isList : IsArgumentList phrase) :
    IsArgumentList (argument.tokens ++ (phrase ++ [])) := by
  obtain ⟨others, -, othersWritable, rfl⟩ := isList
  refine ⟨argument :: others, List.cons_ne_nil _ _,
    List.forall_mem_cons.mpr ⟨writable, othersWritable⟩, ?_⟩
  rw [List.flatMap_cons, List.append_nil]

/-- The first argument that goes wrong makes the list go wrong there. -/
theorem stopsAt_list_of_readArgument {placed : List Placed} {stop : List Char}
    (fails : (readArgument placed).FailsAt stop) : StopsAt IsArgumentList placed stop :=
  (stopsAt_of_readArgument fails).inside (uses_nil_iff.mpr rfl) areSpelled_nil fun _ =>
    isArgumentList_of_isArgument

/-- So does a later one. -/
theorem StopsAt.behind_argument {placed rest : List Placed} {argument : InlineArgument}
    {stop : List Char} (stops : StopsAt IsArgumentList rest stop)
    (read : readArgument placed = .read argument rest) : StopsAt IsArgumentList placed stop := by
  obtain ⟨writable, uses, -⟩ := readArgument_eq_read_iff.mp read
  exact stops.inside uses areSpelled_nil fun _ => isArgumentList_cons writable

theorem stopsAt_of_readFurther {placed : List Placed} {stop : List Char}
    (read : readFurther placed = .error stop) : StopsAt IsArgumentList placed stop := by
  fun_induction readFurther placed with
  | case1 => cases read
  | case2 placed first rest readFirst place readOthers inductionHypothesis =>
    cases read
    exact (inductionHypothesis readOthers).behind_argument readFirst
  | case3 => cases read
  | case4 placed place broken =>
    cases read
    exact stopsAt_list_of_readArgument (Or.inr broken)

theorem stopsAt_of_readArguments {placed : List Placed} {stop : List Char}
    (read : readArguments placed = .error stop) : StopsAt IsArgumentList placed stop := by
  unfold readArguments at read
  split at read
  · next readFirst =>
    split at read
    · cases read
    · next readOthers =>
      cases read
      exact (stopsAt_of_readFurther readOthers).behind_argument readFirst
  · next missing =>
    cases read
    exact stopsAt_list_of_readArgument (Or.inl missing)
  · next broken =>
    cases read
    exact stopsAt_list_of_readArgument (Or.inr broken)

/-! ### Fields -/

/-- The tokens of the definition of a field. -/
def IsSignature (tokens : List Token) : Prop :=
  ∃ signature : Signature, signature.IsWritable ∧ tokens = signature.tokens

theorem isViable_name_signature : IsViable IsSignature [] :=
  ⟨[.name .nullWord], areSpelled_name _ areSpelled_nil, ⟨.nullWord, []⟩, List.forall_mem_nil _, rfl⟩

theorem isSignature_of_isArgumentList (name : Name) {phrase : List Token}
    (isList : IsArgumentList phrase) :
    IsSignature ([.name name, .mark .openParenthesis] ++
      (phrase ++ [.mark .closeParenthesis])) := by
  obtain ⟨arguments, nonempty, writable, rfl⟩ := isList
  refine ⟨⟨name, arguments⟩, writable, ?_⟩
  cases arguments with
  | nil => exact absurd rfl nonempty
  | cons first others => rfl

/-- Where reading a field fails, what stands before can be completed to a field. -/
theorem stopsAt_of_readSignature {placed : List Placed} {stop : List Char}
    (read : readSignature placed = .error stop) : StopsAt IsSignature placed stop := by
  unfold readSignature at read
  split at read
  · next name nameSource openingSource rest =>
    have inParentheses {place : List Char} (stops : StopsAt IsArgumentList rest place) :
        StopsAt IsSignature
          (⟨.name name, nameSource⟩ :: ⟨.mark .openParenthesis, openingSource⟩ :: rest) place :=
      stops.inside ⟨[_, _], rfl, rfl⟩ (areSpelled_mark .closeParenthesis areSpelled_nil) fun _ =>
        isSignature_of_isArgumentList name
    split at read
    · cases read
    · next arguments after unclosed readAll =>
      cases read
      obtain ⟨nonempty, readFurther⟩ := readArguments_eq_ok_iff.mp readAll
      obtain ⟨writable, uses⟩ := readFurther_eq_ok readFurther
      have isList : IsArgumentList (arguments.flatMap InlineArgument.tokens) :=
        ⟨arguments, nonempty, writable, rfl⟩
      exact inParentheses (uses.stopsAt (isViable_of_isPhrase isList))
    · next listFails =>
      cases read
      exact inParentheses (stopsAt_of_readArguments listFails)
  · cases read
  · cases read
    exact stopsAt_position _ isViable_name_signature

end SchemaAssembly.Grammar
