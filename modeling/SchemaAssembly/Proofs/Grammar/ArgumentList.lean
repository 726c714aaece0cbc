/-
This file proves that a list of argument definitions means the same on its own and within the
definition of a field, whatever it holds. Behind a line break the closing parenthesis is a token
of its own, for the line break ends a comment and breaks off a text that is still open. As a
definition has no other closing parenthesis, what stands before this one is the whole list.
-/

import SchemaAssembly.Proofs.Grammar.LineBreak
import SchemaAssembly.Proofs.Grammar.Signature

namespace SchemaAssembly

open Grammar

namespace Grammar

/-! ### Tokens at the start of a source -/

theorem tokens_mark (mark : Mark) (rest : List Char) :
    tokens (mark.letter :: rest) = ⟨.mark mark, mark.letter :: rest⟩ :: tokens rest := by
  have skipped : skipIgnored false (mark.letter :: rest) = mark.letter :: rest := by
    cases mark <;> rfl
  have isRead : next mark.letter rest = (.mark mark, rest) := by
    unfold next
    rw [(mark?_eq_some_iff mark.letter mark).mpr rfl]
  rw [tokens_of_skipIgnored_cons skipped, isRead]

theorem map_tokens_name_mark (name : Name) (mark : Mark) (rest : List Char) :
    (tokens (name.letters ++ mark.letter :: rest)).map Placed.token =
      .name name :: .mark mark :: (tokens rest).map Placed.token := by
  have spelled : Spells (.name name) name.letters := rfl
  have apart : ¬StartsWord (mark.letter :: rest) := not_startsWord_cons mark.isNamePart_letter rest
  have noPoint : ∀ letter ∈ (mark.letter :: rest).head?, letter ≠ '.' := by
    rintro _ ⟨⟩
    cases mark <;> decide
  have isFirst := tokens_gap_append .nil spelled (fun _ => apart) noPoint
  rw [List.nil_append] at isFirst
  rw [isFirst, tokens_mark, List.map_cons, List.map_cons]

/-- What stands behind a name and a mark is laid out for itself. -/
theorem laid_name_mark_iff (name : Name) (mark : Mark) {expected : List Token}
    {rest : List Char} :
    Laid expected (name.letters ++ mark.letter :: rest) ↔
      ∃ others, expected = .name name :: .mark mark :: others ∧ Laid others rest := by
  rw [laid_iff, map_tokens_name_mark]
  constructor
  · rintro ⟨rfl, readable⟩
    refine ⟨_, rfl, laid_iff.mpr ⟨rfl, fun token member => readable token ?_⟩⟩
    exact List.mem_cons_of_mem _ (List.mem_cons_of_mem _ member)
  · rintro ⟨others, rfl, laid⟩
    obtain ⟨rfl, readable⟩ := laid_iff.mp laid
    exact ⟨rfl, List.forall_mem_cons.mpr ⟨trivial, List.forall_mem_cons.mpr ⟨trivial, readable⟩⟩⟩

end Grammar

/-! ### Lists on their own -/

namespace InlineArgument

theorem parseAll_eq_ok_iff_readArguments {arguments : List InlineArgument} {source : String} :
    parseAll source = .ok arguments ↔
      readArguments (Grammar.tokens source.toList) = .ok (arguments, []) := by
  unfold parseAll
  dsimp only
  rcases readArguments (Grammar.tokens source.toList) with _ | ⟨found, _ | _⟩ <;> simp

/-- A list is read where the tokens of its arguments are laid out, and only there. -/
theorem parseAll_eq_ok_iff_laid {arguments : List InlineArgument} {source : String} :
    parseAll source = .ok arguments ↔
      arguments ≠ [] ∧ (∀ argument ∈ arguments, argument.IsWritable) ∧
        Laid (arguments.flatMap tokens) source.toList := by
  rw [parseAll_eq_ok_iff_readArguments, readArguments_eq_ok_iff, laid_iff,
    and_iff_left (isReadable_flatMap_tokens arguments), ← uses_all_iff]
  refine and_congr_right fun _ => ⟨readFurther_eq_ok, fun ⟨writable, uses⟩ => ?_⟩
  refine readFurther_of_uses writable uses ?_
  rintro token ⟨source, rest, ⟨⟩⟩

end InlineArgument

/-! ### Lists within definitions -/

namespace Signature

/-- Behind a line break the closing parenthesis ends the definition, and what stands between the
parentheses is the list. -/
theorem laid_tokens_iff {signature : Signature} {name : Name} {body : List Char} :
    Laid signature.tokens (name.letters ++ '(' :: body ++ ['\n', ')']) ↔
      signature.name = name ∧ signature.arguments ≠ [] ∧
        Laid (signature.arguments.flatMap InlineArgument.tokens) body := by
  have spelled : Spells (.mark .closeParenthesis) [')'] := rfl
  have closing : Laid [.mark .closeParenthesis] [')'] :=
    .cons .nil spelled False.elim (.nil .nil)
  obtain ⟨own, arguments⟩ := signature
  constructor
  · intro laid
    obtain ⟨first, second, split, laidFirst, laidSecond⟩ := laid.split_line
    obtain rfl : [.mark .closeParenthesis] = second :=
      closing.tokens_eq.symm.trans laidSecond.tokens_eq
    obtain ⟨others, rfl, laidOthers⟩ :=
      (laid_name_mark_iff name .openParenthesis).mp laidFirst
    cases arguments with
    | nil => cases split
    | cons head more =>
      obtain ⟨sameName, sameRest⟩ := List.cons.inj split
      have same := List.append_cancel_right (List.cons.inj sameRest).2
      refine ⟨Token.name.inj sameName, List.cons_ne_nil _ _, ?_⟩
      rw [same]
      exact laidOthers
  · rintro ⟨rfl, nonempty, laid⟩
    have opened := (laid_name_mark_iff own .openParenthesis).mpr ⟨_, rfl, laid⟩
    have whole := opened.append_line closing
    cases arguments with
    | nil => exact absurd rfl nonempty
    | cons head more => exact whole

/-- A list of argument definitions is accepted on its own exactly if it is within the parentheses
of a field's definition, of which the closing one stands on a line of its own, and then as the same
arguments. The field is the one that the definition names. -/
theorem parse_eq_ok_iff_parseAll (name field : Name) (body : String)
    (arguments : List InlineArgument) :
    parse (name.text ++ "(" ++ body ++ "\n)") = .ok ⟨field, arguments⟩ ↔
      field = name ∧ InlineArgument.parseAll body = .ok arguments := by
  have letters : (name.text ++ "(" ++ body ++ "\n)").toList =
      name.letters ++ '(' :: body.toList ++ ['\n', ')'] := by
    simp [Name.text]
  rw [parse_eq_ok_iff_laid, InlineArgument.parseAll_eq_ok_iff_laid, letters, laid_tokens_iff,
    IsWritable]
  tauto

end Signature

end SchemaAssembly
