/-
This file says of which tokens the compact syntax makes up a type, a constant, an argument and a
field, without reference to how they are read. Three names are words of the language, so a member
of an enumeration that is called like one of them cannot be written. The last part is about token
lists that start with given tokens.
-/

import SchemaAssembly.Grammar.Signature
import SchemaAssembly.Proofs.Grammar.Lexing

namespace SchemaAssembly

open Grammar

/-! ### Types -/

namespace TypeRef

/-- The mark of a required type. -/
def markTokens (required : Bool) : List Token :=
  if required then [.mark .exclamation] else []

/-- The tokens of a reference to a type. -/
def tokens : TypeRef → List Token
  | .named name required => .name name :: markTokens required
  | .list item required =>
    .mark .openBracket :: (item.tokens ++ .mark .closeBracket :: markTokens required)

end TypeRef

/-! ### Constants -/

namespace Name

/-- The name that is written for the constant null. -/
def nullWord : Name := ⟨"null".toList, rfl⟩

/-- The name that is written for the constant true. -/
def trueWord : Name := ⟨"true".toList, rfl⟩

/-- The name that is written for the constant false. -/
def falseWord : Name := ⟨"false".toList, rfl⟩

/-- A name that is a word of the language where a constant is expected. -/
def IsReserved (name : Name) : Prop :=
  name = trueWord ∨ name = falseWord ∨ name = nullWord

end Name

namespace Constant

mutual

/-- The tokens of a constant. -/
def tokens : Constant → List Token
  | .null => [.name .nullWord]
  | .boolean true => [.name .trueWord]
  | .boolean false => [.name .falseWord]
  | .enumMember name => [.name name]
  | .int digits => [.int digits]
  | .float digits => [.float digits]
  | .text content => [.text content]
  | .list items => .mark .openBracket :: (itemTokens items ++ [.mark .closeBracket])
  | .object members => .mark .openBrace :: (memberTokens members ++ [.mark .closeBrace])

/-- The tokens of the items of a list. -/
def itemTokens : List Constant → List Token
  | [] => []
  | head :: rest => head.tokens ++ itemTokens rest

/-- The tokens of the members of an object, each with its name and a colon. -/
def memberTokens : List (Name × Constant) → List Token
  | [] => []
  | (name, head) :: rest => .name name :: .mark .colon :: (head.tokens ++ memberTokens rest)

end

mutual

/-- Whether a constant can be written: no member of an enumeration in it is called like a word of
the language. -/
def IsWritable : Constant → Prop
  | .enumMember name => ¬name.IsReserved
  | .list items => ItemsAreWritable items
  | .object members => MembersAreWritable members
  | _ => True

/-- All items of a list can be written. -/
def ItemsAreWritable : List Constant → Prop
  | [] => True
  | head :: rest => head.IsWritable ∧ ItemsAreWritable rest

/-- All members of an object can be written. -/
def MembersAreWritable : List (Name × Constant) → Prop
  | [] => True
  | (_, head) :: rest => head.IsWritable ∧ MembersAreWritable rest

end

/-- Items in two parts are written part by part. -/
theorem itemTokens_append (first second : List Constant) :
    itemTokens (first ++ second) = itemTokens first ++ itemTokens second := by
  induction first with
  | nil => rfl
  | cons head rest inductionHypothesis =>
    rw [List.cons_append, itemTokens, inductionHypothesis, itemTokens, List.append_assoc]

theorem memberTokens_append (first second : List (Name × Constant)) :
    memberTokens (first ++ second) = memberTokens first ++ memberTokens second := by
  induction first with
  | nil => rfl
  | cons head rest inductionHypothesis =>
    obtain ⟨name, constant⟩ := head
    rw [List.cons_append, memberTokens, inductionHypothesis, memberTokens]
    simp only [List.cons_append, List.append_assoc]

theorem itemsAreWritable_append (first second : List Constant) :
    ItemsAreWritable (first ++ second) ↔ ItemsAreWritable first ∧ ItemsAreWritable second := by
  induction first with
  | nil => rw [List.nil_append, ItemsAreWritable, true_and]
  | cons head rest inductionHypothesis =>
    rw [List.cons_append, ItemsAreWritable, inductionHypothesis, ItemsAreWritable, and_assoc]

/-- Members in two parts can be written if those of each part can. -/
theorem membersAreWritable_append (first second : List (Name × Constant)) :
    MembersAreWritable (first ++ second) ↔
      MembersAreWritable first ∧ MembersAreWritable second := by
  induction first with
  | nil => rw [List.nil_append, MembersAreWritable, true_and]
  | cons head rest inductionHypothesis =>
    obtain ⟨name, constant⟩ := head
    rw [List.cons_append, MembersAreWritable, inductionHypothesis, MembersAreWritable, and_assoc]

/-- The constant of a name is written as that name. -/
theorem tokens_ofName (name : Name) : (ofName name).tokens = [.name name] := by
  unfold ofName
  split
  · next isTrue =>
    obtain rfl : name = .trueWord := Name.ext isTrue
    rfl
  · split
    · next isFalse =>
      obtain rfl : name = .falseWord := Name.ext isFalse
      rfl
    · split
      · next isNull =>
        obtain rfl : name = .nullWord := Name.ext isNull
        rfl
      · rfl

/-- A name where a constant is expected stands for a constant that can be written. -/
theorem isWritable_ofName (name : Name) : (ofName name).IsWritable := by
  unfold ofName
  split
  · trivial
  · next notTrue =>
    split
    · trivial
    · next notFalse =>
      split
      · trivial
      · next notNull =>
        rintro (rfl | rfl | rfl)
        · exact notTrue rfl
        · exact notFalse rfl
        · exact notNull rfl

/-- A name that is no word of the language is a member of an enumeration. -/
theorem ofName_of_not_isReserved {name : Name} (free : ¬name.IsReserved) :
    ofName name = .enumMember name := by
  show (if name.letters = Name.trueWord.letters then _ else
    if name.letters = Name.falseWord.letters then _ else
      if name.letters = Name.nullWord.letters then _ else _) = _
  rw [if_neg fun isTrue => free (Or.inl (Name.ext isTrue)),
    if_neg fun isFalse => free (Or.inr (Or.inl (Name.ext isFalse))),
    if_neg fun isNull => free (Or.inr (Or.inr (Name.ext isNull)))]

end Constant

/-! ### Arguments and fields -/

namespace InlineArgument

/-- The tokens of a default with the equals sign before it, if there is a default. -/
def defaultTokens : Option Constant → List Token
  | none => []
  | some constant => .mark .equals :: constant.tokens

/-- The tokens of the definition of an argument. -/
def tokens (argument : InlineArgument) : List Token :=
  .name argument.name :: .mark .colon ::
    (argument.type.tokens ++ defaultTokens argument.default?)

/-- Whether the definition of an argument can be written. -/
def IsWritable (argument : InlineArgument) : Prop :=
  ∀ constant ∈ argument.default?, constant.IsWritable

end InlineArgument

namespace Signature

/-- The tokens of the arguments of a field: parentheses around their definitions, unless there are
none. -/
def argumentTokens : List InlineArgument → List Token
  | [] => []
  | first :: others =>
    .mark .openParenthesis ::
      ((first :: others).flatMap InlineArgument.tokens ++ [.mark .closeParenthesis])

/-- The tokens of the definition of a field. -/
def tokens (signature : Signature) : List Token :=
  .name signature.name :: argumentTokens signature.arguments

/-- Whether the definition of a field can be written. -/
def IsWritable (signature : Signature) : Prop :=
  ∀ argument ∈ signature.arguments, argument.IsWritable

end Signature

/-! ### Every token of a definition has a spelling -/

/-- All tokens of a type can be read. -/
theorem TypeRef.isReadable_tokens (type : TypeRef) : ∀ token ∈ type.tokens, token.IsReadable := by
  have ofMark : ∀ required, ∀ token ∈ markTokens required, token.IsReadable := by
    intro required
    cases required with
    | false => exact List.forall_mem_nil _
    | true => exact List.forall_mem_singleton.mpr trivial
  induction type with
  | named name required => exact List.forall_mem_cons.mpr ⟨trivial, ofMark required⟩
  | list item required inductionHypothesis =>
    refine List.forall_mem_cons.mpr ⟨trivial, List.forall_mem_append.mpr ⟨inductionHypothesis, ?_⟩⟩
    exact List.forall_mem_cons.mpr ⟨trivial, ofMark required⟩

namespace Constant

mutual

/-- All tokens of a constant can be read. -/
theorem isReadable_tokens (constant : Constant) :
    ∀ token ∈ constant.tokens, token.IsReadable := by
  cases constant with
  | list items =>
    refine List.forall_mem_cons.mpr ⟨trivial, List.forall_mem_append.mpr ⟨?_, ?_⟩⟩
    · exact isReadable_itemTokens items
    · exact List.forall_mem_singleton.mpr trivial
  | object members =>
    refine List.forall_mem_cons.mpr ⟨trivial, List.forall_mem_append.mpr ⟨?_, ?_⟩⟩
    · exact isReadable_memberTokens members
    · exact List.forall_mem_singleton.mpr trivial
  | boolean value => cases value <;> exact List.forall_mem_singleton.mpr trivial
  | _ => exact List.forall_mem_singleton.mpr trivial

theorem isReadable_itemTokens (items : List Constant) :
    ∀ token ∈ itemTokens items, token.IsReadable := by
  cases items with
  | nil => exact List.forall_mem_nil _
  | cons head rest =>
    exact List.forall_mem_append.mpr ⟨isReadable_tokens head, isReadable_itemTokens rest⟩

theorem isReadable_memberTokens (members : List (Name × Constant)) :
    ∀ token ∈ memberTokens members, token.IsReadable := by
  match members with
  | [] => exact List.forall_mem_nil _
  | (name, head) :: rest =>
    refine List.forall_mem_cons.mpr ⟨trivial, List.forall_mem_cons.mpr ⟨trivial, ?_⟩⟩
    exact List.forall_mem_append.mpr ⟨isReadable_tokens head, isReadable_memberTokens rest⟩

end

end Constant

/-- All tokens of an argument can be read. -/
theorem InlineArgument.isReadable_tokens (argument : InlineArgument) :
    ∀ token ∈ argument.tokens, token.IsReadable := by
  refine List.forall_mem_cons.mpr ⟨trivial, List.forall_mem_cons.mpr ⟨trivial, ?_⟩⟩
  refine List.forall_mem_append.mpr ⟨argument.type.isReadable_tokens, ?_⟩
  cases argument.default? with
  | none => exact List.forall_mem_nil _
  | some constant => exact List.forall_mem_cons.mpr ⟨trivial, constant.isReadable_tokens⟩

theorem InlineArgument.isReadable_flatMap_tokens (arguments : List InlineArgument) :
    ∀ token ∈ arguments.flatMap tokens, token.IsReadable := by
  intro token member
  obtain ⟨argument, -, inArgument⟩ := List.mem_flatMap.mp member
  exact argument.isReadable_tokens token inArgument

/-- All tokens of a field can be read. -/
theorem Signature.isReadable_tokens (signature : Signature) :
    ∀ token ∈ signature.tokens, token.IsReadable := by
  refine List.forall_mem_cons.mpr ⟨trivial, ?_⟩
  cases signature.arguments with
  | nil => exact List.forall_mem_nil _
  | cons first others =>
    refine List.forall_mem_cons.mpr ⟨trivial, List.forall_mem_append.mpr ⟨?_, ?_⟩⟩
    · exact InlineArgument.isReadable_flatMap_tokens (first :: others)
    · exact List.forall_mem_singleton.mpr trivial

namespace Grammar

/-! ### The tokens that are used up -/

/-- Some placed tokens start with the given ones, after which `rest` is left. -/
def Uses (placed : List Placed) (expected : List Token) (rest : List Placed) : Prop :=
  ∃ used, placed = used ++ rest ∧ used.map Placed.token = expected

/-- Some placed tokens start with the given one. -/
def Leads (token : Token) (placed : List Placed) : Prop :=
  ∃ source rest, placed = ⟨token, source⟩ :: rest

theorem uses_nil_iff {placed rest : List Placed} : Uses placed [] rest ↔ placed = rest := by
  constructor
  · rintro ⟨used, rfl, none⟩
    rw [List.map_eq_nil_iff.mp none, List.nil_append]
  · rintro rfl
    exact ⟨[], rfl, rfl⟩

/-- The first of the expected tokens is taken from the start, wherever in the source it stands. -/
theorem uses_cons_iff {placed rest : List Placed} {token : Token} {expected : List Token} :
    Uses placed (token :: expected) rest ↔
      ∃ source others, placed = ⟨token, source⟩ :: others ∧ Uses others expected rest := by
  constructor
  · rintro ⟨used, rfl, same⟩
    obtain ⟨first, others, rfl, rfl, rfl⟩ := List.map_eq_cons_iff.mp same
    exact ⟨first.source, others ++ rest, rfl, others, rfl, rfl⟩
  · rintro ⟨source, others, rfl, used, rfl, rfl⟩
    exact ⟨⟨token, source⟩ :: used, rfl, rfl⟩

/-- Tokens that are expected in two parts are taken one part after the other. -/
theorem uses_append_iff {placed rest : List Placed} {first second : List Token} :
    Uses placed (first ++ second) rest ↔
      ∃ middle, Uses placed first middle ∧ Uses middle second rest := by
  constructor
  · rintro ⟨used, rfl, same⟩
    obtain ⟨front, back, rfl, rfl, rfl⟩ := List.map_eq_append_iff.mp same
    exact ⟨back ++ rest, ⟨front, List.append_assoc _ _ _, rfl⟩, back, rfl, rfl⟩
  · rintro ⟨middle, ⟨front, rfl, rfl⟩, back, rfl, rfl⟩
    exact ⟨front ++ back, (List.append_assoc _ _ _).symm, List.map_append⟩

/-- Nothing is left where the tokens are the expected ones. -/
theorem uses_all_iff {placed : List Placed} {expected : List Token} :
    Uses placed expected [] ↔ placed.map Placed.token = expected := by
  constructor
  · rintro ⟨used, rfl, rfl⟩
    rw [List.append_nil]
  · rintro rfl
    exact ⟨placed, (List.append_nil _).symm, rfl⟩

theorem uses_singleton_iff {placed rest : List Placed} {token : Token} :
    Uses placed [token] rest ↔ ∃ source, placed = ⟨token, source⟩ :: rest := by
  simp only [uses_cons_iff, uses_nil_iff, exists_eq_right]

theorem Uses.leads {placed rest : List Placed} {token : Token} {expected : List Token}
    (uses : Uses placed (token :: expected) rest) : Leads token placed := by
  obtain ⟨source, others, rfl, -⟩ := uses_cons_iff.mp uses
  exact ⟨source, others, rfl⟩

/-- One token only is at the start. -/
theorem Leads.eq {first second : Token} {placed : List Placed} (leads : Leads first placed)
    (alsoLeads : Leads second placed) : first = second := by
  obtain ⟨source, rest, rfl⟩ := leads
  obtain ⟨_, _, same⟩ := alsoLeads
  exact congrArg Placed.token (List.cons.inj same).1

end Grammar

end SchemaAssembly
