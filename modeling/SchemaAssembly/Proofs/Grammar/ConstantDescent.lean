/-
This file proves that constants are read on characters as they are on tokens. The reader keeps what
is open on a stack and has no levels. What carries the proof is a statement about every stack: a
production for a constant comes to what the reader comes to when it hands that constant to the
innermost list or object that is open.
-/

import SchemaAssembly.Proofs.Grammar.Constant
import SchemaAssembly.Proofs.Grammar.Opening

namespace SchemaAssembly.Grammar

/-! ### What the reader comes to -/

/-- A production for a constant comes to what the reader comes to that hands the constant to the
innermost list or object. Where no constant begins, the production is absent right there. -/
inductive Outcome.Follows (pending : List Frame) (source : List Char) :
    Outcome Constant → Except (List Char) (Constant × List Placed) → Prop
  | taken (constant : Constant) (rest : List Char) :
      Follows pending source (.taken constant rest)
        (resume (deliver constant pending) (tokens rest))
  | absent : Follows pending source (.absent source) (.error (missingValue source pending))
  | broken (place : List Char) : Follows pending source (.broken place) (.error place)

/-- What else there might be does not matter if it is absent. -/
theorem Outcome.Follows.orElse_absent {pending : List Frame} {source : List Char}
    {outcome : Outcome Constant} {result : Except (List Char) (Constant × List Placed)}
    (follows : outcome.Follows pending source result) :
    (outcome.orElse (.absent source)).Follows pending source result := by
  cases follows with
  | taken constant rest => exact .taken constant rest
  | absent => exact .absent
  | broken place => exact .broken place

/-- A production for an item or member comes to what the reader comes to that waits for one. Where
there is none, and no closing mark either, the reader fails right there. -/
inductive Outcome.Continues {β : Type} (awaiting : List β → Awaiting) (closing : Mark)
    (pending : List Frame) (before : List β) (source : List Char) : Outcome β → Prop
  | taken {value : β} {rest : List Char}
      (goesOn : readFrom (awaiting before) pending (tokens source) =
        readFrom (awaiting (value :: before)) pending (tokens rest)) :
      Continues awaiting closing pending before source (.taken value rest)
  | absent {place : List Char}
      (fails : StartsWithout closing (tokens source) →
        readFrom (awaiting before) pending (tokens source) = .error (skipIgnored false source)) :
      Continues awaiting closing pending before source (.absent place)
  | broken {place : List Char}
      (fails : readFrom (awaiting before) pending (tokens source) = .error place) :
      Continues awaiting closing pending before source (.broken place)

/-- Repeated, it comes to what the reader comes to that waits for them one after the other. -/
inductive Outcome.RunsOn {β : Type} (awaiting : List β → Awaiting) (closing : Mark)
    (pending : List Frame) (before : List β) (source : List Char) : Outcome (List β) → Prop
  | taken {values : List β} {rest : List Char}
      (goesOn : readFrom (awaiting before) pending (tokens source) =
        readFrom (awaiting (values.reverse ++ before)) pending (tokens rest))
      (fails : StartsWithout closing (tokens rest) →
        readFrom (awaiting (values.reverse ++ before)) pending (tokens rest) =
          .error (skipIgnored false rest)) :
      RunsOn awaiting closing pending before source (.taken values (skipIgnored false rest))
  | broken {place : List Char}
      (fails : readFrom (awaiting before) pending (tokens source) = .error place) :
      RunsOn awaiting closing pending before source (.broken place)

namespace Production

variable {β : Type} {source rest : List Char}

/-! ### Numbers and texts -/

theorem number?_eq_none {first : Char} (notSign : first ≠ '-') (notDigit : first.isDigit = false)
    (rest : List Char) : number? (first :: rest) = none := by
  have noSign : sign (first :: rest) = ([], first :: rest) := by
    unfold sign
    split
    · next same => exact absurd (List.cons.inj same).1 notSign
    · rfl
  have noDigits : Natural.digits? (first :: rest) = none := by
    rw [Natural.digits?, List.takeWhile_cons_of_neg (Bool.eq_false_iff.mp notDigit)]
  rw [number?, noSign, noDigits]

theorem number?_eq_none_of_isNameStart {first : Char} (start : isNameStart first = true)
    (rest : List Char) : number? (first :: rest) = none := by
  refine number?_eq_none ?_ (Bool.eq_false_iff.mpr fun isDigit => ?_) rest
  · rintro rfl
    exact absurd start (by decide)
  · rw [isNameStart_eq_false_of_isDigit isDigit] at start
    cases start

theorem number?_quote (rest : List Char) : number? ('"' :: rest) = none :=
  number?_eq_none (by decide) rfl rest

/-- A turn takes a character of a literal, stops at its end or fails, as its meaning has it. -/
theorem textBody_cases (source : List Char) :
    (∃ letter rest, literalPart source = .taken letter rest ∧
      textBody source = withLetter letter (textBody rest)) ∨
    (∃ rest, source = '"' :: rest ∧ literalPart source = .absent source ∧
      textBody source = .ok ([], rest)) ∨
    ∃ place, literalPart source = .broken place ∧ textBody source = .error place := by
  fun_cases textBody source with
  | case1 => exact Or.inr (Or.inr ⟨[], rfl, rfl⟩)
  | case2 rest => exact Or.inr (Or.inl ⟨rest, rfl, rfl, rfl⟩)
  | case3 first second third fourth rest letter decoded =>
    refine Or.inl ⟨letter, rest, ?_, rfl⟩
    rw [literalPart, decoded]
  | case4 first second third fourth rest notDecoded =>
    refine Or.inr (Or.inr ⟨_, ?_, rfl⟩)
    rw [literalPart, notDecoded]
  | case5 mark rest notUnicode letter decoded =>
    refine Or.inl ⟨letter, rest, ?_, rfl⟩
    rw [literalPart, decoded]
    exact notUnicode
  | case6 mark rest notUnicode notDecoded =>
    refine Or.inr (Or.inr ⟨_, ?_, rfl⟩)
    rw [literalPart, notDecoded]
    exact notUnicode
  | case7 letter rest notQuote notUnicode notEscape ends =>
    refine Or.inr (Or.inr ⟨_, ?_, rfl⟩)
    rw [literalPart, if_pos ends]
    · exact notQuote
    · exact notUnicode
    · exact notEscape
  | case8 letter rest notQuote notUnicode notEscape plain =>
    refine Or.inl ⟨letter, rest, ?_, rfl⟩
    rw [literalPart, if_neg plain]
    · exact notQuote
    · exact notUnicode
    · exact notEscape

/-- The turns of reading a literal take its characters and stop at the closing quote, or fail where
the literal breaks off. -/
theorem turns_literalPart {source : List Char} {count : Nat} (enough : source.length < count) :
    turns literalPart count source =
      match textBody source with
      | .ok (letters, after) => .taken letters ('"' :: after)
      | .error failure => .broken failure := by
  induction count generalizing source with
  | zero => exact absurd enough (Nat.not_lt_zero _)
  | succ count inductionHypothesis =>
    obtain ⟨letter, rest, taken, isBody⟩ | ⟨rest, rfl, absent, isBody⟩ | ⟨place, broken, isBody⟩ :=
      textBody_cases source
    · have shorter := (advancesOn_literalPart source).shorter taken
      rw [turns_of_taken taken shorter, isBody,
        inductionHypothesis (Nat.lt_of_lt_of_le shorter (Nat.le_of_lt_succ enough))]
      rcases textBody rest with failure | ⟨letters, after⟩ <;> rfl
    · rw [turns_of_absent absent, isBody]
    · rw [turns_of_broken broken, isBody]

/-- A text literal is read as its body is. -/
theorem textLiteral_quote (source : List Char) :
    textLiteral ('"' :: source) =
      match textBody source with
      | .ok (letters, after) => .taken (.text (String.ofList letters)) after
      | .error failure => .broken failure := by
  have inside := turns_literalPart (Nat.lt_succ_self source.length)
  have whole : textLiteral ('"' :: source) =
      (turns literalPart (source.length + 1) source).andThen fun letters => do
        symbol '"'
        return .text (String.ofList letters) := rfl
  rw [whole, inside]
  rcases textBody source with failure | ⟨letters, after⟩ <;> rfl

/-! ### Lists and objects -/

/-- A list or an object is read between two marks: behind the opening mark the reader waits for the
first item or member, and the closing mark completes the constant. -/
structure Encloses (opening closing : Mark) (build : List β → Constant)
    (awaiting : List β → Awaiting) : Prop where
  begins : ∀ pending source,
    step .value pending ⟨.mark opening, source⟩ = .proceed (awaiting []) pending
  ends : ∀ before pending source,
    step (awaiting before) pending ⟨.mark closing, source⟩ = deliver (build before.reverse) pending

theorem encloses_list : Encloses .openBracket .closeBracket .list .item :=
  ⟨fun _ _ => rfl, fun _ _ _ => rfl⟩

theorem encloses_object : Encloses .openBrace .closeBrace .object .member :=
  ⟨fun _ _ => rfl, fun _ _ _ => rfl⟩

section Bodies

variable {opening closing : Mark} {build : List β → Constant} {awaiting : List β → Awaiting}
  {body : Production β} {pending : List Frame}

/-- The induction is on the turns. A turn that takes a value hands it to what is open, and the first
that is absent leaves the closing mark, or the mistake, to what follows. -/
theorem runsOn_turns {length count : Nat} (before : List β) {source : List Char}
    (continues : ∀ before source, (skipIgnored false source).length < length →
      (body (skipIgnored false source)).Continues awaiting closing pending before source)
    (advances : ∀ source : List Char, source.length < length → body.AdvancesOn source)
    (short : (skipIgnored false source).length < length)
    (enough : (skipIgnored false source).length < count) :
    (turns (spaced body) count (skipIgnored false source)).RunsOn awaiting closing pending before
      source := by
  induction count generalizing before source with
  | zero => exact absurd enough (Nat.not_lt_zero _)
  | succ count inductionHypothesis =>
    have turn := continues before source short
    have advance := advances _ short
    generalize isTurn : body (skipIgnored false source) = outcome at turn
    cases turn with
    | @taken value rest goesOn =>
      have shorter := Nat.lt_of_le_of_lt (skipIgnored_suffix false rest).length_le
        (advance.shorter isTurn)
      rw [turns_of_taken (spaced_of_taken isTurn) shorter]
      have others := inductionHypothesis (value :: before) (Nat.lt_trans shorter short)
        (Nat.lt_of_lt_of_le shorter (Nat.le_of_lt_succ enough))
      generalize turns (spaced body) count (skipIgnored false rest) = run at others
      cases others with
      | @taken values last runsOn fails =>
        have same : values.reverse ++ value :: before = (value :: values).reverse ++ before := by
          rw [List.reverse_cons, List.append_assoc, List.singleton_append]
        rw [same] at runsOn fails
        exact .taken (goesOn.trans runsOn) fails
      | broken fails => exact .broken (goesOn.trans fails)
    | @absent place fails =>
      have absent : spaced body (skipIgnored false source) = .absent place := by
        simp [spaced, isTurn]
      rw [turns_of_absent absent]
      exact .taken rfl fails
    | @broken place fails =>
      have broken : spaced body (skipIgnored false source) = .broken place := by
        simp [spaced, isTurn]
      rw [turns_of_broken broken]
      exact .broken fails

/-- What stands between two marks completes the constant, if its parts are read as they should. -/
theorem follows_enclosed {rest source : List Char}
    (encloses : Encloses opening closing build awaiting)
    (continues : ∀ before source, (skipIgnored false source).length ≤ rest.length →
      (body (skipIgnored false source)).Continues awaiting closing pending before source)
    (advances : ∀ source : List Char, source.length ≤ rest.length → body.AdvancesOn source)
    (taken : Production.mark opening (skipIgnored false source) = .taken () rest)
    (isTokens : tokens source = ⟨.mark opening, skipIgnored false source⟩ :: tokens rest) :
    (enclosed opening closing build body (skipIgnored false source)).Follows pending
      (skipIgnored false source) (readFrom .value pending (tokens source)) := by
  have runsOn := runsOn_turns []
    (fun before source short => continues before source (Nat.le_of_lt_succ short))
    (fun source short => advances source (Nat.le_of_lt_succ short))
    (Nat.lt_succ_of_le (skipIgnored_suffix false rest).length_le) (Nat.lt_succ_self _)
  rw [isTokens, readFrom_cons, encloses.begins, resume]
  generalize isRun : turns (spaced body) ((skipIgnored false rest).length + 1)
    (skipIgnored false rest) = run at runsOn
  cases runsOn with
  | @taken values last goesOn fails =>
    rw [goesOn]
    rw [List.append_nil] at fails ⊢
    obtain ⟨after, closed, isClosing⟩ | ⟨notClosed, without⟩ :=
      mark_cases (opening_tokens last) closing
    · have whole : enclosed opening closing build body (skipIgnored false source) =
          .taken (build values) after := by
        simp [enclosed, repeated, taken, isRun, closed]
      rw [whole, isClosing, readFrom_cons, encloses.ends, List.reverse_reverse]
      exact .taken _ after
    · have whole : enclosed opening closing build body (skipIgnored false source) =
          .broken (skipIgnored false last) := by
        simp [enclosed, repeated, taken, isRun, notClosed]
      rw [whole, fails without]
      exact .broken _
  | @broken place fails =>
    have whole : enclosed opening closing build body (skipIgnored false source) =
        .broken place := by
      simp [enclosed, repeated, taken, isRun]
    rw [whole, fails]
    exact .broken place

end Bodies

/-! ### Constants -/

/-- A constant does not start with a mark, unless that opens a list or an object. -/
theorem constant_mark {mark : Mark} (noList : mark ≠ .openBracket) (noObject : mark ≠ .openBrace)
    (levels : Nat) (rest : List Char) :
    constant (levels + 1) (mark.letter :: rest) = .absent (mark.letter :: rest) := by
  cases mark with
  | openBracket => exact absurd rfl noList
  | openBrace => exact absurd rfl noObject
  | _ => rfl

theorem beginValue_of_mark {mark : Mark} (noList : mark ≠ .openBracket)
    (noObject : mark ≠ .openBrace) (source : List Char) (pending : List Frame) :
    beginValue ⟨.mark mark, source⟩ pending = .reject (missingValue source pending) := by
  cases mark with
  | openBracket => exact absurd rfl noList
  | openBrace => exact absurd rfl noObject
  | _ => rfl

theorem readFrom_item_of_startsWithout {before : List Constant} {pending : List Frame}
    {placed : List Placed} (without : StartsWithout .closeBracket placed) :
    readFrom (.item before) pending placed = readFrom .value (.item before :: pending) placed := by
  cases placed with
  | nil => rfl
  | cons first rest =>
    have sameStep : step (.item before) pending first =
        step .value (.item before :: pending) first := if_neg (without first rfl)
    rw [readFrom_cons, readFrom_cons, sameStep]

theorem readFrom_colon_of_startsWithout {before : List (Name × Constant)} {name : Name}
    {start : List Char} {pending : List Frame} {placed : List Placed}
    (without : StartsWithout .colon placed) :
    readFrom (.colon before name start) pending placed = .error start := by
  cases placed with
  | nil => rfl
  | cons first rest =>
    have noStep : step (.colon before name start) pending first = .reject start :=
      if_neg (without first rfl)
    rw [readFrom_cons, noStep, resume]

theorem readFrom_member_of_startsWithout {before : List (Name × Constant)} {pending : List Frame}
    {placed : List Placed} (without : StartsWithout .closeBrace placed)
    (noName : StartsWithoutName placed) :
    readFrom (.member before) pending placed = .error (position placed) := by
  cases placed with
  | nil => rfl
  | cons first rest =>
    have noStep : step (.member before) pending first = .reject first.source := by
      unfold step
      dsimp only
      split
      · next isClosing => exact absurd isClosing (without first rfl)
      · next name isName => exact absurd isName (noName first rfl name)
      · rfl
    rw [readFrom_cons, noStep, resume, position]

/-- A value continues a list, as it is read with the list being open. -/
theorem continues_item {before : List Constant} {pending : List Frame} {source : List Char}
    {levels : Nat}
    (follows : (constant levels (skipIgnored false source)).Follows (.item before :: pending)
      (skipIgnored false source) (readFrom .value (.item before :: pending) (tokens source))) :
    (constant levels (skipIgnored false source)).Continues .item .closeBracket pending before
      source := by
  obtain ⟨rest, taken, isTokens⟩ | ⟨-, without⟩ := mark_cases (opening_tokens source) .closeBracket
  · cases levels with
    | zero => cases follows
    | succ levels =>
      rw [eq_cons_of_mark_taken taken, constant_mark (by decide) (by decide)]
      refine .absent fun without => ?_
      rw [isTokens] at without
      exact absurd rfl (without _ rfl)
  · rw [← readFrom_item_of_startsWithout without] at follows
    generalize constant levels (skipIgnored false source) = outcome at follows
    generalize isRead : readFrom (.item before) pending (tokens source) = result at follows
    cases follows with
    | taken value rest => exact .taken isRead
    | absent => exact .absent fun _ => isRead
    | broken place => exact .broken isRead

/-- A member with its name and a colon continues an object. -/
theorem continues_member {before : List (Name × Constant)} {pending : List Frame}
    {source : List Char} {value : Production Constant}
    (follows : ∀ name rest, rest.length < (skipIgnored false source).length →
      (value (skipIgnored false rest)).Follows
        (.member before name (skipIgnored false source) :: pending) (skipIgnored false rest)
        (readFrom .value (.member before name (skipIgnored false source) :: pending)
          (tokens rest))) :
    (member value (skipIgnored false source)).Continues .member .closeBrace pending before
      source := by
  have opening := opening_tokens source
  obtain ⟨name, rest, taken, isTokens⟩ | ⟨absent, noName⟩ := someName_cases opening
  · have shorter := (advancesOn_someName _).shorter taken
    have atName : readFrom (.member before) pending (tokens source) =
        readFrom (.colon before name (skipIgnored false source)) pending (tokens rest) := by
      rw [isTokens, readFrom_cons]
      rfl
    obtain ⟨after, colon, isColon⟩ | ⟨noColon, without⟩ := mark_cases (opening_tokens rest) .colon
    · have shorterAfter := (advancesOn_mark .colon _).shorter colon
      have behind := (skipIgnored_suffix false rest).length_le
      have atColon : readFrom (.member before) pending (tokens source) =
          readFrom .value (.member before name (skipIgnored false source) :: pending)
            (tokens after) := by
        rw [atName, isColon, readFrom_cons]
        rfl
      have inside := follows name after (by omega)
      rw [← atColon] at inside
      generalize isValue : value (skipIgnored false after) = outcome at inside
      generalize isRead : readFrom (.member before) pending (tokens source) = result at inside
      cases inside with
      | taken constant last =>
        have whole : member value (skipIgnored false source) = .taken (name, constant) last := by
          simp [member, taken, colon, isValue]
        rw [whole]
        exact .taken isRead
      | absent =>
        have whole : member value (skipIgnored false source) =
            .absent (skipIgnored false after) := by
          simp [member, taken, colon, isValue]
        rw [whole]
        exact .absent fun _ => isRead
      | broken place =>
        have whole : member value (skipIgnored false source) = .broken place := by
          simp [member, taken, colon, isValue]
        rw [whole]
        exact .broken isRead
    · have whole : member value (skipIgnored false source) =
          .absent (skipIgnored false rest) := by
        simp [member, taken, noColon]
      rw [whole]
      refine .absent fun _ => ?_
      rw [atName]
      exact readFrom_colon_of_startsWithout without
  · have whole : member value (skipIgnored false source) = .absent (skipIgnored false source) := by
      simp [member, absent]
    rw [whole]
    refine .absent fun without => ?_
    rw [readFrom_member_of_startsWithout without noName, position_tokens]

theorem constant_of_noOpening {first : Char} {rest : List Char} (notMark : mark? first = none)
    (notQuote : first ≠ '"') (notNumber : number? (first :: rest) = none) (levels : Nat) :
    constant (levels + 1) (first :: rest) = word (first :: rest) := by
  simp [constant, number, notNumber, textLiteral, symbol_of_ne notQuote, listValue, objectValue,
    enclosed, mark_of_mark?_eq_none notMark]

theorem word_of_taken {name : Name} (taken : someName source = .taken name rest) :
    word source = .taken (.ofName name) rest := by
  simp [word, taken]

/-- A mark opens a list or an object, or no constant begins with it. Of the alternatives only one
can begin with the mark, and those behind it are absent. The levels inside are read as they
should. -/
theorem follows_mark {levels : Nat} {mark : Mark} {pending : List Frame} {rest source : List Char}
    (inside : ∀ pending source, (skipIgnored false source).length ≤ rest.length →
      (constant levels (skipIgnored false source)).Follows pending (skipIgnored false source)
        (readFrom .value pending (tokens source)))
    (advances : ∀ part : List Char, part.length ≤ rest.length → (constant levels).AdvancesOn part)
    (isStart : skipIgnored false source = mark.letter :: rest)
    (isTokens : tokens source = ⟨.mark mark, mark.letter :: rest⟩ :: tokens rest) :
    (constant (levels + 1) (mark.letter :: rest)).Follows pending (mark.letter :: rest)
      (readFrom .value pending (⟨.mark mark, mark.letter :: rest⟩ :: tokens rest)) := by
  have taken : Production.mark mark (skipIgnored false source) = .taken () rest := by
    rw [isStart, mark_taken]
  have placed : tokens source = ⟨.mark mark, skipIgnored false source⟩ :: tokens rest := by
    rw [isTokens, isStart]
  by_cases isList : mark = .openBracket
  · subst isList
    have follows := (follows_enclosed encloses_list
      (fun before part le => continues_item (inside (.item before :: pending) part le))
      advances taken placed).orElse_absent
    rw [isStart, isTokens] at follows
    exact follows
  · by_cases isObject : mark = .openBrace
    · subst isObject
      have members (before : List (Name × Constant)) (part : List Char)
          (le : (skipIgnored false part).length ≤ rest.length) :
          (member (constant levels) (skipIgnored false part)).Continues .member .closeBrace
            pending before part := by
        refine continues_member fun name behind shorter => inside _ behind ?_
        have kept := (skipIgnored_suffix false behind).length_le
        omega
      have follows := (follows_enclosed encloses_object members
        (fun part le => advancesOn_member fun inner shorter => advances inner (by omega))
        taken placed).orElse_absent
      rw [isStart, isTokens] at follows
      exact follows
    · rw [constant_mark isList isObject, readFrom_cons, step, beginValue_of_mark isList isObject]
      exact .absent

/-- A constant is read on characters as it is on tokens, whatever lists and objects are open. -/
theorem follows_constant {levels : Nat} (pending : List Frame) {source : List Char}
    (enough : (skipIgnored false source).length < levels) :
    (constant levels (skipIgnored false source)).Follows pending (skipIgnored false source)
      (readFrom .value pending (tokens source)) := by
  induction levels generalizing pending source with
  | zero => exact absurd enough (Nat.not_lt_zero _)
  | succ levels inductionHypothesis =>
    have opening := opening_tokens source
    generalize isStart : skipIgnored false source = start at opening enough
    generalize isTokens : tokens source = placed at opening
    cases opening with
    | atEnd => exact .absent
    | mark mark rest =>
      have short : rest.length < levels := Nat.lt_of_succ_lt_succ enough
      exact follows_mark
        (fun pending _ le => inductionHypothesis pending (Nat.lt_of_le_of_lt le short))
        (fun _ le => advancesOn_constant (Nat.lt_of_le_of_lt le short)) isStart isTokens
    | @name first rest start =>
      have notMark : mark? first = none := by
        refine mark?_eq_none_of_isNamePart ?_
        rw [isNamePart_eq, start, Bool.true_or]
      have notQuote : first ≠ '"' := by
        rintro rfl
        exact absurd start (by decide)
      rw [constant_of_noOpening notMark notQuote (number?_eq_none_of_isNameStart start rest),
        word_of_taken (someName_of_isNameStart start rest), readFrom_cons]
      exact .taken _ _
    | @text rest letters after read =>
      have whole : constant (levels + 1) ('"' :: rest) =
          .taken (.text (String.ofList letters)) after := by
        simp [constant, number, number?_quote, textLiteral_quote, read]
      rw [whole, readFrom_cons]
      exact .taken _ after
    | @brokenText rest failure read =>
      have whole : constant (levels + 1) ('"' :: rest) = .broken failure := by
        simp [constant, number, number?_quote, textLiteral_quote, read]
      rw [whole]
      exact .broken failure
    | @number first rest after token notMark notName notQuote read =>
      obtain ⟨digits, rfl | rfl⟩ := isNumber_of_number? read
      · have whole : constant (levels + 1) (first :: rest) = .taken (.int digits) after := by
          simp [constant, number, read]
        rw [whole, readFrom_cons]
        exact .taken _ after
      · have whole : constant (levels + 1) (first :: rest) = .taken (.float digits) after := by
          simp [constant, number, read]
        rw [whole, readFrom_cons]
        exact .taken _ after
    | @stray first rest notMark notName notQuote notNumber =>
      have whole : constant (levels + 1) (first :: rest) = .absent (first :: rest) := by
        rw [constant_of_noOpening notMark notQuote notNumber]
        simp [word, someName_of_not_isNameStart notName]
      rw [whole]
      exact .absent

end Production

end SchemaAssembly.Grammar
