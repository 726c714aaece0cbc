/-
This file proves that a constant is read exactly where its tokens stand. The reader holds the
lists and objects that are open on a stack, and what carries the proof is that the stack stands
for the tokens that have been taken: each token extends them by itself, so the constant that is
complete in the end consists of them. Conversely the tokens of a constant are taken one after the
other until it is handed to the list or object around it.
-/

import SchemaAssembly.Proofs.Grammar.Phrase

namespace SchemaAssembly.Grammar

open Constant

/-! ### The tokens that have been taken -/

/-- The tokens of a list or object that is open, up to where its next constant stands. -/
def Frame.tokens : Frame → List Token
  | .item before => .mark .openBracket :: itemTokens before.reverse
  | .member before name _ =>
    .mark .openBrace :: (memberTokens before.reverse ++ [.name name, .mark .colon])

/-- The tokens of the innermost list or object, up to what the next token may begin. -/
def Awaiting.tokens : Awaiting → List Token
  | .value => []
  | .item before => .mark .openBracket :: itemTokens before.reverse
  | .member before => .mark .openBrace :: memberTokens before.reverse
  | .colon before name _ => .mark .openBrace :: (memberTokens before.reverse ++ [.name name])

/-- The tokens of all lists and objects that are open, from the outermost on. -/
def taken : List Frame → List Token
  | [] => []
  | frame :: outer => taken outer ++ frame.tokens

/-- What an open list or object holds so far can be written. -/
def Frame.IsWritable : Frame → Prop
  | .item before => ItemsAreWritable before.reverse
  | .member before _ _ => MembersAreWritable before.reverse

/-- What the innermost list or object holds so far can be written. -/
def Awaiting.IsWritable : Awaiting → Prop
  | .value => True
  | .item before => ItemsAreWritable before.reverse
  | .member before => MembersAreWritable before.reverse
  | .colon before _ _ => MembersAreWritable before.reverse

/-- Where a step may lead when the given tokens have been taken: to a state that stands for them,
to the constant that they make up, or to a mistake. -/
inductive Reached (expected : List Token) : Step → Prop
  | proceed {awaiting : Awaiting} {pending : List Frame}
      (isTaken : taken pending ++ awaiting.tokens = expected) (writable : awaiting.IsWritable)
      (outerWritable : ∀ frame ∈ pending, frame.IsWritable) :
      Reached expected (.proceed awaiting pending)
  | finish {constant : Constant} (isTaken : constant.tokens = expected)
      (writable : constant.IsWritable) : Reached expected (.finish constant)
  | reject {position : List Char} : Reached expected (.reject position)

theorem itemTokens_concat (before : List Constant) (constant : Constant) :
    itemTokens (constant :: before).reverse = itemTokens before.reverse ++ constant.tokens := by
  rw [List.reverse_cons, itemTokens_append, itemTokens, itemTokens, List.append_nil]

theorem memberTokens_concat (before : List (Name × Constant)) (name : Name)
    (constant : Constant) :
    memberTokens ((name, constant) :: before).reverse =
      memberTokens before.reverse ++ .name name :: .mark .colon :: constant.tokens := by
  rw [List.reverse_cons, memberTokens_append, memberTokens, memberTokens, List.append_nil]

/-- Handing a constant to what is around it takes the tokens of the constant. -/
theorem reached_deliver {constant : Constant} {pending : List Frame}
    (writable : constant.IsWritable) (outerWritable : ∀ frame ∈ pending, frame.IsWritable) :
    Reached (taken pending ++ constant.tokens) (deliver constant pending) := by
  match pending with
  | [] => exact .finish (List.nil_append _).symm writable
  | .item before :: outer =>
    obtain ⟨itemsWritable, othersWritable⟩ := List.forall_mem_cons.mp outerWritable
    refine .proceed ?_ ?_ othersWritable
    · rw [Awaiting.tokens, itemTokens_concat, taken, Frame.tokens, List.append_assoc,
        List.cons_append]
    · show ItemsAreWritable (constant :: before).reverse
      rw [List.reverse_cons, itemsAreWritable_append]
      exact ⟨itemsWritable, writable, trivial⟩
  | .member before name _ :: outer =>
    obtain ⟨membersWritable, othersWritable⟩ := List.forall_mem_cons.mp outerWritable
    refine .proceed ?_ ?_ othersWritable
    · rw [Awaiting.tokens, memberTokens_concat, taken, Frame.tokens]
      simp only [List.cons_append, List.append_assoc, List.nil_append]
    · show MembersAreWritable ((name, constant) :: before).reverse
      rw [List.reverse_cons, membersAreWritable_append]
      exact ⟨membersWritable, writable, trivial⟩

theorem reached_beginValue (placed : Placed) {pending : List Frame}
    (outerWritable : ∀ frame ∈ pending, frame.IsWritable) :
    Reached (taken pending ++ [placed.token]) (beginValue placed pending) := by
  unfold beginValue
  split
  · next digits isInt =>
    have writable : (Constant.int digits).IsWritable := trivial
    rw [isInt]
    exact reached_deliver writable outerWritable
  · next digits isFloat =>
    have writable : (Constant.float digits).IsWritable := trivial
    rw [isFloat]
    exact reached_deliver writable outerWritable
  · next content isText =>
    have writable : (Constant.text content).IsWritable := trivial
    rw [isText]
    exact reached_deliver writable outerWritable
  · next name isName =>
    rw [isName, ← tokens_ofName]
    exact reached_deliver (isWritable_ofName name) outerWritable
  · next isOpening => rw [isOpening]; exact .proceed rfl trivial outerWritable
  · next isOpening => rw [isOpening]; exact .proceed rfl trivial outerWritable
  · exact .reject
  · exact .reject
  · exact .reject

/-- Each step takes the token that it is given. -/
theorem reached_step {awaiting : Awaiting} {pending : List Frame} (placed : Placed)
    (writable : awaiting.IsWritable) (outerWritable : ∀ frame ∈ pending, frame.IsWritable) :
    Reached (taken pending ++ awaiting.tokens ++ [placed.token])
      (step awaiting pending placed) := by
  cases awaiting with
  | value =>
    rw [Awaiting.tokens, List.append_nil]
    exact reached_beginValue placed outerWritable
  | item before =>
    rw [step]
    split
    · next isClosing =>
      have listWritable : (Constant.list before.reverse).IsWritable := writable
      rw [isClosing, List.append_assoc]
      exact reached_deliver listWritable outerWritable
    · have framesWritable : ∀ frame ∈ .item before :: pending, frame.IsWritable :=
        List.forall_mem_cons.mpr ⟨writable, outerWritable⟩
      exact reached_beginValue placed framesWritable
  | member before =>
    rw [step]
    split
    · next isClosing =>
      have objectWritable : (Constant.object before.reverse).IsWritable := writable
      rw [isClosing, List.append_assoc]
      exact reached_deliver objectWritable outerWritable
    · next isName =>
      refine .proceed ?_ writable outerWritable
      rw [isName, Awaiting.tokens, Awaiting.tokens, List.append_assoc, List.cons_append]
    · exact .reject
  | colon before name start =>
    rw [step]
    split
    · next isColon =>
      rw [isColon]
      refine .proceed ?_ trivial (List.forall_mem_cons.mpr ⟨writable, outerWritable⟩)
      rw [taken, Frame.tokens, Awaiting.tokens, Awaiting.tokens]
      simp only [List.append_assoc, List.cons_append, List.nil_append, List.append_nil]
    · exact .reject

/-- A constant that is read consists of the tokens that were taken before and those that are
taken from the source. -/
theorem readFrom_eq_ok {awaiting : Awaiting} {pending : List Frame} {placed rest : List Placed}
    {constant : Constant} (read : readFrom awaiting pending placed = .ok (constant, rest))
    (writable : awaiting.IsWritable) (outerWritable : ∀ frame ∈ pending, frame.IsWritable) :
    constant.IsWritable ∧ ∃ used, placed = used ++ rest ∧
      constant.tokens = taken pending ++ awaiting.tokens ++ used.map Placed.token := by
  induction placed generalizing awaiting pending with
  | nil => cases read
  | cons first others inductionHypothesis =>
    have reached := reached_step first writable outerWritable
    unfold readFrom at read
    generalize step awaiting pending first = outcome at read reached
    cases reached with
    | proceed isTaken nextWritable nextOuter =>
      obtain ⟨isWritable, used, rfl, isUsed⟩ := inductionHypothesis read nextWritable nextOuter
      refine ⟨isWritable, first :: used, rfl, ?_⟩
      rw [isUsed, isTaken, List.map_cons, List.append_assoc, List.singleton_append]
    | finish isTaken isWritable =>
      cases read
      exact ⟨isWritable, [first], rfl, isTaken⟩
    | reject => cases read

/-! ### The tokens of a constant are taken -/

/-- What comes of a step and the tokens after it. -/
def resume : Step → List Placed → Except (List Char) (Constant × List Placed)
  | .proceed awaiting pending, rest => readFrom awaiting pending rest
  | .finish constant, rest => .ok (constant, rest)
  | .reject position, _ => .error position

theorem readFrom_cons (awaiting : Awaiting) (pending : List Frame) (first : Placed)
    (rest : List Placed) :
    readFrom awaiting pending (first :: rest) = resume (step awaiting pending first) rest := by
  rw [readFrom]
  cases step awaiting pending first <;> rfl

/-- A constant does not start like the end of a list. -/
theorem tokens_ne_closeBracket (constant : Constant) :
    ∃ first others, constant.tokens = first :: others ∧ first ≠ .mark .closeBracket := by
  cases constant with
  | boolean value => cases value <;> exact ⟨_, _, rfl, nofun⟩
  | _ => exact ⟨_, _, rfl, nofun⟩

/-- Where an item may stand, it is read as a value whose list is open. -/
theorem readFrom_item {constant : Constant} {before : List Constant} {pending : List Frame}
    {placed rest : List Placed} (uses : Uses placed constant.tokens rest) :
    readFrom (.item before) pending placed = readFrom .value (.item before :: pending) placed := by
  obtain ⟨first, others, split, notClosing⟩ := tokens_ne_closeBracket constant
  rw [split] at uses
  obtain ⟨source, after, rfl, -⟩ := uses_cons_iff.mp uses
  have sameStep : step (.item before) pending ⟨first, source⟩ =
      step .value (.item before :: pending) ⟨first, source⟩ := if_neg notClosing
  rw [readFrom_cons, readFrom_cons, sameStep]

theorem readFrom_value_name {name : Name} {pending : List Frame} {placed rest : List Placed}
    (uses : Uses placed [.name name] rest) :
    readFrom .value pending placed = resume (deliver (ofName name) pending) rest := by
  obtain ⟨source, rfl⟩ := uses_singleton_iff.mp uses
  rw [readFrom_cons, step, beginValue]

mutual

/-- The tokens of a constant are taken, and it is handed to what is around it. -/
theorem readFrom_value {constant : Constant} {pending : List Frame} {placed rest : List Placed}
    (writable : constant.IsWritable) (uses : Uses placed constant.tokens rest) :
    readFrom .value pending placed = resume (deliver constant pending) rest := by
  cases constant with
  | null => exact readFrom_value_name uses
  | boolean value => cases value <;> exact readFrom_value_name uses
  | enumMember name =>
    rw [← ofName_of_not_isReserved writable]
    exact readFrom_value_name uses
  | int digits =>
    obtain ⟨source, rfl⟩ := uses_singleton_iff.mp uses
    rw [readFrom_cons, step, beginValue]
  | float digits =>
    obtain ⟨source, rfl⟩ := uses_singleton_iff.mp uses
    rw [readFrom_cons, step, beginValue]
  | text content =>
    obtain ⟨source, rfl⟩ := uses_singleton_iff.mp uses
    rw [readFrom_cons, step, beginValue]
  | list items =>
    obtain ⟨opening, others, rfl, usesOthers⟩ := uses_cons_iff.mp uses
    obtain ⟨middle, usesItems, usesClosing⟩ := uses_append_iff.mp usesOthers
    obtain ⟨closing, rfl⟩ := uses_singleton_iff.mp usesClosing
    rw [readFrom_cons, step, beginValue, resume, readFrom_items writable usesItems, readFrom_cons,
      step, if_pos rfl, List.append_nil, List.reverse_reverse]
  | object members =>
    obtain ⟨opening, others, rfl, usesOthers⟩ := uses_cons_iff.mp uses
    obtain ⟨middle, usesMembers, usesClosing⟩ := uses_append_iff.mp usesOthers
    obtain ⟨closing, rfl⟩ := uses_singleton_iff.mp usesClosing
    rw [readFrom_cons, step, beginValue, resume, readFrom_members writable usesMembers,
      readFrom_cons, step, List.append_nil, List.reverse_reverse]

theorem readFrom_items {items before : List Constant} {pending : List Frame}
    {placed rest : List Placed} (writable : ItemsAreWritable items)
    (uses : Uses placed (itemTokens items) rest) :
    readFrom (.item before) pending placed =
      readFrom (.item (items.reverse ++ before)) pending rest := by
  cases items with
  | nil =>
    obtain rfl := uses_nil_iff.mp uses
    rfl
  | cons head others =>
    obtain ⟨middle, usesHead, usesOthers⟩ := uses_append_iff.mp uses
    obtain ⟨headWritable, othersWritable⟩ := writable
    rw [readFrom_item usesHead, readFrom_value headWritable usesHead, deliver, resume,
      readFrom_items othersWritable usesOthers, List.reverse_cons, List.append_assoc,
      List.singleton_append]

theorem readFrom_members {members before : List (Name × Constant)} {pending : List Frame}
    {placed rest : List Placed} (writable : MembersAreWritable members)
    (uses : Uses placed (memberTokens members) rest) :
    readFrom (.member before) pending placed =
      readFrom (.member (members.reverse ++ before)) pending rest := by
  match members with
  | [] =>
    obtain rfl := uses_nil_iff.mp uses
    rfl
  | (name, head) :: others =>
    obtain ⟨start, afterName, rfl, usesColon⟩ := uses_cons_iff.mp uses
    obtain ⟨colon, afterColon, rfl, usesValue⟩ := uses_cons_iff.mp usesColon
    obtain ⟨middle, usesHead, usesOthers⟩ := uses_append_iff.mp usesValue
    obtain ⟨headWritable, othersWritable⟩ := writable
    rw [readFrom_cons, step, resume, readFrom_cons, step, if_pos rfl, resume,
      readFrom_value headWritable usesHead, deliver, resume,
      readFrom_members othersWritable usesOthers, List.reverse_cons, List.append_assoc,
      List.singleton_append]

end

/-- A constant is read exactly where its tokens stand. -/
theorem readConstant_eq_ok_iff {constant : Constant} {placed rest : List Placed} :
    readConstant placed = .ok (constant, rest) ↔
      constant.IsWritable ∧ Uses placed constant.tokens rest := by
  constructor
  · intro read
    obtain ⟨writable, used, split, isUsed⟩ :=
      readFrom_eq_ok read trivial (List.forall_mem_nil _)
    exact ⟨writable, used, split, isUsed.symm⟩
  · intro ⟨writable, uses⟩
    exact readFrom_value writable uses

end SchemaAssembly.Grammar
