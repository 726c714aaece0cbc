/-
This file proves that a reference to a type is read exactly where its tokens stand, and that a
mark behind it is always taken to be its own.
-/

import SchemaAssembly.Proofs.Grammar.Phrase

namespace SchemaAssembly.Grammar

/-- A mark is taken wherever one stands. -/
theorem withMark_eq_read_iff {type : Bool → TypeRef} {placed rest : List Placed}
    {value : TypeRef} :
    withMark type placed = .read value rest ↔
      ∃ required, value = type required ∧ Uses placed (TypeRef.markTokens required) rest ∧
        (required = false → ¬Leads (.mark .exclamation) rest) := by
  constructor
  · intro read
    unfold withMark at read
    split at read
    · cases read
      exact ⟨true, rfl, uses_singleton_iff.mpr ⟨_, rfl⟩, Bool.noConfusion⟩
    · next unmarked =>
      cases read
      refine ⟨false, rfl, uses_nil_iff.mpr rfl, ?_⟩
      rintro - ⟨source, others, rfl⟩
      exact unmarked source others rfl
  · rintro ⟨required, rfl, uses, unmarked⟩
    cases required with
    | true =>
      obtain ⟨source, rfl⟩ := uses_singleton_iff.mp uses
      rfl
    | false =>
      obtain rfl := uses_nil_iff.mp uses
      unfold withMark
      split
      · exact absurd ⟨_, _, rfl⟩ (unmarked rfl)
      · rfl

/-- A type is read as far as it goes, its mark included. -/
theorem readType_eq_read_iff {type : TypeRef} {placed rest : List Placed} :
    readType placed = .read type rest ↔
      Uses placed type.tokens rest ∧
        (type.isRequired = false → ¬Leads (.mark .exclamation) rest) := by
  induction type generalizing placed rest with
  | named name required =>
    rw [TypeRef.tokens, uses_cons_iff]
    constructor
    · intro read
      unfold readType at read
      split at read
      · obtain ⟨_, same, uses, unmarked⟩ := withMark_eq_read_iff.mp read
        cases same
        exact ⟨⟨_, _, rfl, uses⟩, unmarked⟩
      · split at read
        · obtain ⟨_, same, -⟩ := withMark_eq_read_iff.mp read
          cases same
        all_goals cases read
      · cases read
    · rintro ⟨⟨source, others, rfl, uses⟩, unmarked⟩
      exact withMark_eq_read_iff.mpr ⟨required, rfl, uses, unmarked⟩
  | list item required inductionHypothesis =>
    rw [TypeRef.tokens, uses_cons_iff]
    constructor
    · intro read
      unfold readType at read
      split at read
      · obtain ⟨_, same, -⟩ := withMark_eq_read_iff.mp read
        cases same
      · split at read
        · next inner =>
          obtain ⟨_, same, uses, unmarked⟩ := withMark_eq_read_iff.mp read
          cases same
          obtain ⟨usesItem, -⟩ := inductionHypothesis.mp inner
          refine ⟨⟨_, _, rfl, uses_append_iff.mpr ⟨_, usesItem, ?_⟩⟩, unmarked⟩
          exact uses_cons_iff.mpr ⟨_, _, rfl, uses⟩
        all_goals cases read
      · cases read
    · rintro ⟨⟨source, others, rfl, uses⟩, unmarked⟩
      obtain ⟨middle, usesItem, usesClosing⟩ := uses_append_iff.mp uses
      have notMark : ¬Leads (.mark .exclamation) middle := by
        intro leads
        cases leads.eq usesClosing.leads
      have inner := inductionHypothesis.mpr ⟨usesItem, fun _ => notMark⟩
      obtain ⟨closing, after, rfl, usesMark⟩ := uses_cons_iff.mp usesClosing
      rw [readType, inner]
      exact withMark_eq_read_iff.mpr ⟨required, rfl, usesMark, unmarked⟩

end SchemaAssembly.Grammar
