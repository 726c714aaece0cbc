/-
This file proves that the compact definition of a field is accepted exactly as its grammar has it.
The readers of arguments look one token ahead, and what may follow an argument in a definition is
the name of another one or the closing parenthesis, so nothing is taken for a part of it that is
none. With the layouts of tokens this says of every source which definition it holds.
-/

import SchemaAssembly.Field.Basic
import SchemaAssembly.Proofs.Grammar.BareLayout
import SchemaAssembly.Proofs.Grammar.Constant
import SchemaAssembly.Proofs.Grammar.TypeRef
import SchemaAssembly.Proofs.Keyed

namespace SchemaAssembly

open Grammar

namespace Grammar

/-! ### Arguments -/

theorem withDefault_eq_read_iff {name : Name} {type : TypeRef} {placed rest : List Placed}
    {argument : InlineArgument} :
    withDefault name type placed = .read argument rest ↔
      argument.name = name ∧ argument.type = type ∧ argument.IsWritable ∧
        Uses placed (InlineArgument.defaultTokens argument.default?) rest ∧
        (argument.default? = none → ¬Leads (.mark .equals) rest) := by
  constructor
  · intro read
    unfold withDefault at read
    split at read
    · split at read
      · next constant after inner =>
        cases read
        obtain ⟨writable, uses⟩ := readConstant_eq_ok_iff.mp inner
        refine ⟨rfl, rfl, ?_, uses_cons_iff.mpr ⟨_, _, rfl, uses⟩, nofun⟩
        rintro _ ⟨⟩
        exact writable
      · cases read
    · next noEquals =>
      cases read
      refine ⟨rfl, rfl, nofun, uses_nil_iff.mpr rfl, fun _ leads => ?_⟩
      obtain ⟨source, others, rfl⟩ := leads
      exact noEquals source others rfl
  · obtain ⟨_, _, default?⟩ := argument
    rintro ⟨rfl, rfl, writable, uses, noEquals⟩
    cases default? with
    | none =>
      obtain rfl := uses_nil_iff.mp uses
      unfold withDefault
      split
      · exact absurd ⟨_, _, rfl⟩ (noEquals rfl)
      · rfl
    | some constant =>
      obtain ⟨source, others, rfl, usesConstant⟩ := uses_cons_iff.mp uses
      have inner := readConstant_eq_ok_iff.mpr ⟨writable constant rfl, usesConstant⟩
      rw [withDefault, inner]

/-- Nothing follows that would be taken for a mark or a default of an argument without one. -/
def EndsArgument (argument : InlineArgument) (rest : List Placed) : Prop :=
  argument.default? = none → ¬Leads (.mark .equals) rest ∧
    (argument.type.isRequired = false → ¬Leads (.mark .exclamation) rest)

/-- An argument is read as far as it goes, its default included. -/
theorem readArgument_eq_read_iff {argument : InlineArgument} {placed rest : List Placed} :
    readArgument placed = .read argument rest ↔
      argument.IsWritable ∧ Uses placed argument.tokens rest ∧ EndsArgument argument rest := by
  constructor
  · intro read
    unfold readArgument at read
    split at read
    · split at read
      · next inner =>
        obtain ⟨rfl, rfl, writable, usesDefault, noEquals⟩ := withDefault_eq_read_iff.mp read
        obtain ⟨usesType, unmarked⟩ := readType_eq_read_iff.mp inner
        refine ⟨writable, uses_cons_iff.mpr ⟨_, _, rfl, uses_cons_iff.mpr ⟨_, _, rfl, ?_⟩⟩, ?_⟩
        · exact uses_append_iff.mpr ⟨_, usesType, usesDefault⟩
        · intro noDefault
          rw [noDefault] at usesDefault
          obtain rfl := uses_nil_iff.mp usesDefault
          exact ⟨noEquals noDefault, unmarked⟩
      all_goals cases read
    all_goals cases read
  · intro ⟨writable, uses, ends⟩
    obtain ⟨nameSource, afterName, rfl, usesColon⟩ := uses_cons_iff.mp uses
    obtain ⟨colonSource, afterColon, rfl, usesRest⟩ := uses_cons_iff.mp usesColon
    obtain ⟨middle, usesType, usesDefault⟩ := uses_append_iff.mp usesRest
    have unmarked : argument.type.isRequired = false → ¬Leads (.mark .exclamation) middle := by
      intro optional
      cases given : argument.default? with
      | none =>
        rw [given] at usesDefault
        obtain rfl := uses_nil_iff.mp usesDefault
        exact (ends given).2 optional
      | some constant =>
        rw [given] at usesDefault
        exact fun leads => nomatch leads.eq usesDefault.leads
    have inner := readType_eq_read_iff.mpr ⟨usesType, unmarked⟩
    rw [readArgument, inner]
    exact withDefault_eq_read_iff.mpr
      ⟨rfl, rfl, writable, usesDefault, fun noDefault => (ends noDefault).1⟩

/-! ### Lists of arguments -/

/-- Nothing follows a list of arguments, or the closing parenthesis does. -/
def EndsList (rest : List Placed) : Prop :=
  ∀ token, Leads token rest → token = .mark .closeParenthesis

/-- In a list of arguments no mark but the one that closes it stands before an argument. -/
theorem not_leads_of_uses_arguments {arguments : List InlineArgument} {placed rest : List Placed}
    {mark : Mark} (notClosing : mark ≠ .closeParenthesis)
    (uses : Uses placed (arguments.flatMap InlineArgument.tokens) rest) (ends : EndsList rest) :
    ¬Leads (.mark mark) placed := by
  intro leads
  cases arguments with
  | nil =>
    obtain rfl := uses_nil_iff.mp uses
    exact notClosing (Token.mark.inj (ends _ leads))
  | cons first others =>
    rw [List.flatMap_cons] at uses
    nomatch leads.eq uses.leads

theorem readFurther_eq_ok {placed rest : List Placed} {arguments : List InlineArgument}
    (read : readFurther placed = .ok (arguments, rest)) :
    (∀ argument ∈ arguments, argument.IsWritable) ∧
      Uses placed (arguments.flatMap InlineArgument.tokens) rest := by
  fun_induction readFurther placed generalizing arguments rest with
  | case1 placed first afterFirst readFirst others after readOthers inductionHypothesis =>
    cases read
    obtain ⟨writable, uses, -⟩ := readArgument_eq_read_iff.mp readFirst
    obtain ⟨othersWritable, usesOthers⟩ := inductionHypothesis readOthers
    refine ⟨List.forall_mem_cons.mpr ⟨writable, othersWritable⟩, ?_⟩
    rw [List.flatMap_cons]
    exact uses_append_iff.mpr ⟨_, uses, usesOthers⟩
  | case2 => cases read
  | case3 placed position missing =>
    cases read
    exact ⟨List.forall_mem_nil _, uses_nil_iff.mpr rfl⟩
  | case4 => cases read

theorem readFurther_of_endsList {rest : List Placed} (ends : EndsList rest) :
    readFurther rest = .ok ([], rest) := by
  cases rest with
  | nil =>
    rw [readFurther]
    rfl
  | cons first others =>
    obtain ⟨token, source⟩ := first
    obtain rfl := ends token ⟨source, others, rfl⟩
    rw [readFurther]
    rfl

theorem readFurther_of_uses {placed rest : List Placed} {arguments : List InlineArgument}
    (writable : ∀ argument ∈ arguments, argument.IsWritable)
    (uses : Uses placed (arguments.flatMap InlineArgument.tokens) rest) (ends : EndsList rest) :
    readFurther placed = .ok (arguments, rest) := by
  induction arguments generalizing placed with
  | nil =>
    obtain rfl := uses_nil_iff.mp uses
    exact readFurther_of_endsList ends
  | cons first others inductionHypothesis =>
    rw [List.flatMap_cons] at uses
    obtain ⟨middle, usesFirst, usesOthers⟩ := uses_append_iff.mp uses
    obtain ⟨firstWritable, othersWritable⟩ := List.forall_mem_cons.mp writable
    have endsFirst : EndsArgument first middle := fun _ =>
      ⟨not_leads_of_uses_arguments nofun usesOthers ends,
        fun _ => not_leads_of_uses_arguments nofun usesOthers ends⟩
    have readFirst := readArgument_eq_read_iff.mpr ⟨firstWritable, usesFirst, endsFirst⟩
    rw [readFurther]
    split
    · next argument afterFirst readHere =>
      cases readHere.symm.trans readFirst
      rw [inductionHypothesis othersWritable usesOthers]
    · next readHere => cases readHere.symm.trans readFirst
    · next readHere => cases readHere.symm.trans readFirst

/-- A list that must not be empty is a list that is not empty. -/
theorem readArguments_eq_ok_iff {placed rest : List Placed} {arguments : List InlineArgument} :
    readArguments placed = .ok (arguments, rest) ↔
      arguments ≠ [] ∧ readFurther placed = .ok (arguments, rest) := by
  rw [readFurther, readArguments]
  cases readArgument placed with
  | read argument afterFirst =>
    dsimp only
    cases readFurther afterFirst with
    | ok read =>
      constructor
      · intro same
        cases same
        exact ⟨nofun, rfl⟩
      · exact fun both => both.2
    | error position => exact ⟨nofun, fun both => nomatch both.2⟩
  | missing position =>
    refine ⟨nofun, fun ⟨nonempty, same⟩ => ?_⟩
    cases same
    exact absurd rfl nonempty
  | broken position => exact ⟨nofun, fun both => nomatch both.2⟩

/-! ### Fields -/

theorem readSignature_eq_ok {placed rest : List Placed} {signature : Signature}
    (read : readSignature placed = .ok (signature, rest)) :
    signature.IsWritable ∧ Uses placed signature.tokens rest := by
  unfold readSignature at read
  split at read
  · split at read
    · next arguments closing after readHere =>
      cases read
      obtain ⟨nonempty, readAll⟩ := readArguments_eq_ok_iff.mp readHere
      obtain ⟨writable, uses⟩ := readFurther_eq_ok readAll
      refine ⟨writable, uses_cons_iff.mpr ⟨_, _, rfl, ?_⟩⟩
      cases arguments with
      | nil => exact absurd rfl nonempty
      | cons first others =>
        refine uses_cons_iff.mpr ⟨_, _, rfl, uses_append_iff.mpr ⟨_, uses, ?_⟩⟩
        exact uses_singleton_iff.mpr ⟨closing, rfl⟩
    all_goals cases read
  · cases read
    exact ⟨List.forall_mem_nil _, uses_singleton_iff.mpr ⟨_, rfl⟩⟩
  · cases read

/-- All tokens are read as the definition of a field if they are those of one. -/
theorem readSignature_eq_ok_iff {placed : List Placed} {signature : Signature} :
    readSignature placed = .ok (signature, []) ↔
      signature.IsWritable ∧ placed.map Placed.token = signature.tokens := by
  rw [← uses_all_iff]
  constructor
  · exact readSignature_eq_ok
  · obtain ⟨name, arguments⟩ := signature
    intro ⟨writable, uses⟩
    obtain ⟨nameSource, afterName, rfl, usesArguments⟩ := uses_cons_iff.mp uses
    cases arguments with
    | nil =>
      obtain rfl := uses_nil_iff.mp usesArguments
      rfl
    | cons first others =>
      obtain ⟨opening, inside, rfl, usesInside⟩ := uses_cons_iff.mp usesArguments
      obtain ⟨middle, usesAll, usesClosing⟩ := uses_append_iff.mp usesInside
      have ends : EndsList middle := fun token leads => leads.eq usesClosing.leads
      have readAll := readFurther_of_uses writable usesAll ends
      have readHere := readArguments_eq_ok_iff.mpr ⟨List.cons_ne_nil _ _, readAll⟩
      obtain ⟨closing, rfl⟩ := uses_singleton_iff.mp usesClosing
      rw [readSignature, readHere]

end Grammar

/-! ### Sources -/

namespace Grammar

/-- The text of a number in which no zero stands in front of the other digits. -/
def IsPlainNumber (text : List Char) : Prop :=
  ∀ sign digit rest, (sign = [] ∨ sign = ['-']) → text = sign ++ '0' :: digit :: rest →
    digit.isDigit = false

/-- A number has no superfluous zeros. -/
def Token.IsPlain : Token → Prop
  | .int digits => IsPlainNumber digits.toList
  | .float digits => IsPlainNumber digits.toList
  | _ => True

end Grammar

namespace Signature

/-- No number in the definition of a field has superfluous zeros. -/
def IsPlain (signature : Signature) : Prop :=
  ∀ token ∈ signature.tokens, token.IsPlain

/-- A source in which the definition of a field is written by the grammar of the language: its
tokens, with any ignored text around them, and no zero in front of the digits of a number. -/
structure IsWritten (signature : Signature) (source : List Char) : Prop where
  writable : signature.IsWritable
  plain : signature.IsPlain
  laid : Laid signature.tokens source

theorem parse_eq_ok_iff_readSignature {signature : Signature} {source : String} :
    parse source = .ok signature ↔
      readSignature (Grammar.tokens source.toList) = .ok (signature, []) := by
  unfold parse
  dsimp only
  split
  · next found readHere =>
    rw [readHere, Except.ok.injEq, Except.ok.injEq, Prod.mk.injEq, eq_self_iff_true, and_true]
  · next found rest notAll readHere =>
    rw [readHere]
    refine ⟨nofun, fun same => ?_⟩
    cases same
    exact absurd rfl notAll
  · next position readHere =>
    rw [readHere]
    exact ⟨nofun, nofun⟩

/-- A definition is read where its tokens are laid out, and only there. -/
theorem parse_eq_ok_iff_laid {signature : Signature} {source : String} :
    parse source = .ok signature ↔
      signature.IsWritable ∧ Laid signature.tokens source.toList := by
  rw [parse_eq_ok_iff_readSignature, readSignature_eq_ok_iff, laid_iff]
  exact and_congr_right fun _ => (and_iff_left signature.isReadable_tokens).symm

/-- A name alone is a definition without arguments. -/
theorem parse_text_name (name : Name) : parse name.text = .ok ⟨name, []⟩ := by
  rw [parse_eq_ok_iff_laid, Name.text, String.toList_ofList]
  have spelled : Spells (.name name) name.letters := rfl
  exact ⟨List.forall_mem_nil _, (LaidBare.token spelled).laid⟩

end Signature

theorem Field.nameAndArguments_text (name : Name) :
    nameAndArguments name.text = .ok (name, ∅) := by
  rw [nameAndArguments, Signature.parse_text_name]
  rfl

/-! ### The arguments of a field -/

theorem Argument.keys_ofList_ofInline (arguments : List InlineArgument) :
    (Keyed.ofList (arguments.map ofInline) : Keyed Argument.name).keys =
      (arguments.map fun argument => argument.name.text).eraseDups := by
  rw [Keyed.keys_ofList, List.map_map]
  rfl

/-- The argument under a name is made from the definition that came last with it. -/
theorem Argument.find?_ofList_ofInline (arguments : List InlineArgument) (wanted : String) :
    (Keyed.ofList (arguments.map ofInline) : Keyed Argument.name).find? wanted =
      (arguments.reverse.find? fun argument => argument.name.text = wanted).map fun last =>
        ⟨wanted, some (.settled last.type), last.default?, none⟩ := by
  rw [Keyed.find?_ofList, ← List.map_reverse, List.find?_map]
  show (arguments.reverse.find? fun argument => argument.name.text = wanted).map _ = _
  cases found : arguments.reverse.find? fun argument => argument.name.text = wanted with
  | none => rfl
  | some last =>
    have named : last.name.text = wanted := by simpa using List.find?_some found
    rw [Option.map_some, Option.map_some, ofInline, named]

/-- The arguments of a definition are kept one for each name: in the order in which the names came
first, and with the content that came last. -/
theorem Field.nameAndArguments_eq_ok_iff (source : String) (name : Name)
    (container : Keyed Argument.name) :
    nameAndArguments source = .ok (name, container) ↔
      ∃ arguments : List InlineArgument, Signature.parse source = .ok ⟨name, arguments⟩ ∧
        container.keys = (arguments.map fun argument => argument.name.text).eraseDups ∧
        ∀ wanted, container.find? wanted =
          (arguments.reverse.find? fun argument => argument.name.text = wanted).map fun last =>
            ⟨wanted, some (.settled last.type), last.default?, none⟩ := by
  constructor
  · intro split
    unfold nameAndArguments at split
    cases read : Signature.parse source with
    | error => rw [read] at split; cases split
    | ok signature =>
      rw [read] at split
      cases split
      exact ⟨signature.arguments, rfl, Argument.keys_ofList_ofInline _,
        Argument.find?_ofList_ofInline _⟩
  · intro ⟨arguments, read, sameKeys, sameFound⟩
    have same : container = Keyed.ofList (arguments.map Argument.ofInline) := by
      refine Keyed.ext_find? ?_ fun wanted => ?_
      · rw [sameKeys, Argument.keys_ofList_ofInline]
      · rw [sameFound, Argument.find?_ofList_ofInline]
    rw [nameAndArguments, read, same]

/-- The compact definition of a field is accepted exactly where it is written, and then as the
definition that is written there. Superfluous zeros are read along with a number; where there are
none, the grammar is that of the language. The arguments of the field are those of the definition,
one for each name. -/
theorem Signature.parse_eq_ok_iff_isWritten (source : String) (name : Name) :
    (∀ arguments : List InlineArgument,
      (parse source = .ok ⟨name, arguments⟩ ↔
        IsWritable ⟨name, arguments⟩ ∧ Laid (tokens ⟨name, arguments⟩) source.toList) ∧
      (parse source = .ok ⟨name, arguments⟩ ∧ IsPlain ⟨name, arguments⟩ ↔
        IsWritten ⟨name, arguments⟩ source.toList)) ∧
    ∀ container : Keyed Argument.name,
      Field.nameAndArguments source = .ok (name, container) ↔
        ∃ arguments : List InlineArgument, parse source = .ok ⟨name, arguments⟩ ∧
          container.keys = (arguments.map fun argument => argument.name.text).eraseDups ∧
          ∀ wanted, container.find? wanted =
            (arguments.reverse.find? fun argument => argument.name.text = wanted).map fun last =>
              ⟨wanted, some (.settled last.type), last.default?, none⟩ := by
  refine ⟨fun arguments => ⟨parse_eq_ok_iff_laid, ?_⟩, Field.nameAndArguments_eq_ok_iff source name⟩
  rw [parse_eq_ok_iff_laid]
  constructor
  · intro ⟨⟨writable, laid⟩, plain⟩
    exact ⟨writable, plain, laid⟩
  · intro written
    exact ⟨⟨written.writable, written.laid⟩, written.plain⟩

end SchemaAssembly
