/-
This file proves that a name is still one in the spelling of the schema. The small form of a letter
that a name may hold is text that a name may hold in the same place, so it does not matter how many
letters at the start are changed.

It also proves that the spelling of the schema is a normal form. How many capitals are changed
depends on how many there are and on what follows them, so the name that has been spelled is cut in
another place than the one before. But where a first capital has been changed there is none any
more, so only capitals in front of it can be changed again, and these are their own small forms.
-/

import SchemaAssembly.Catalog.Spelling
import SchemaAssembly.Name
import SchemaAssembly.Proofs.Text.Case

namespace SchemaAssembly

/-! ### Names and their letters -/

theorem isNamePart_of_isNameStart {letter : Char} (start : isNameStart letter = true) :
    isNamePart letter = true := by
  rw [isNameStart, Bool.or_eq_true] at start
  rw [isNamePart, Bool.or_eq_true, Char.isAlphanum, Bool.or_eq_true]
  exact start.imp_right Or.inl

/-- A name may go on. -/
theorem isNameText_append {name rest : List Char} (valid : isNameText name = true)
    (parts : rest.all isNamePart = true) : isNameText (name ++ rest) = true := by
  cases name with
  | nil => cases valid
  | cons first others =>
    rw [isNameText, Bool.and_eq_true] at valid
    rw [List.cons_append, isNameText, Bool.and_eq_true, List.all_append, Bool.and_eq_true]
    exact ⟨valid.1, valid.2, parts⟩

/-- Names are written in ASCII. -/
theorem toNat_lt_of_isNamePart {letter : Char} (part : isNamePart letter = true) :
    letter.toNat < 128 := by
  unfold isNamePart Char.isAlphanum Char.isAlpha Char.isUpper Char.isLower Char.isDigit at part
  simp only [Bool.or_eq_true, Bool.and_eq_true, decide_eq_true_eq, beq_iff_eq,
    UInt32.le_iff_toNat_le] at part
  rcases part with rfl | (⟨-, upper⟩ | ⟨-, lower⟩) | ⟨-, digit⟩
  · decide
  · exact Nat.lt_of_le_of_lt upper (by decide)
  · exact Nat.lt_of_le_of_lt lower (by decide)
  · exact Nat.lt_of_le_of_lt digit (by decide)

namespace Spelling

/-! ### Small forms -/

/-- The tables of cases keep names apart from other text. -/
theorem lowered_ofNat : ∀ code < 128,
    (isNamePart (Char.ofNat code) = true →
      (Text.lowered (Char.ofNat code)).all isNamePart = true) ∧
    (isNameStart (Char.ofNat code) = true →
      isNameText (Text.lowered (Char.ofNat code)) = true) := by
  decide +kernel

theorem all_isNamePart_lowered {letter : Char} (part : isNamePart letter = true) :
    (Text.lowered letter).all isNamePart = true := by
  have ofCode := (lowered_ofNat letter.toNat (toNat_lt_of_isNamePart part)).1
  rw [Char.ofNat_toNat] at ofCode
  exact ofCode part

theorem isNameText_lowered {letter : Char} (start : isNameStart letter = true) :
    isNameText (Text.lowered letter) = true := by
  have bound := toNat_lt_of_isNamePart (isNamePart_of_isNameStart start)
  have ofCode := (lowered_ofNat letter.toNat bound).2
  rw [Char.ofNat_toNat] at ofCode
  exact ofCode start

theorem all_isNamePart_flatMap_lowered {letters : List Char}
    (parts : letters.all isNamePart = true) :
    (letters.flatMap Text.lowered).all isNamePart = true := by
  rw [List.all_eq_true] at parts ⊢
  intro small member
  obtain ⟨letter, isLetter, lowered⟩ := List.mem_flatMap.mp member
  exact List.all_eq_true.mp (all_isNamePart_lowered (parts letter isLetter)) small lowered

/-! ### Names in the spelling of the schema -/

theorem isNameText_fieldLetters {letters : List Char} (valid : isNameText letters = true) :
    isNameText (fieldLetters letters) = true := by
  rw [fieldLetters]
  generalize firstWordCapitals letters = changed
  cases changed with
  | zero => exact valid
  | succ further =>
    cases letters with
    | nil => cases valid
    | cons first others =>
      rw [isNameText, Bool.and_eq_true, ← List.take_append_drop further others, List.all_append,
        Bool.and_eq_true] at valid
      obtain ⟨start, taken, dropped⟩ := valid
      rw [List.take_succ_cons, List.drop_succ_cons, List.flatMap_cons, List.append_assoc]
      refine isNameText_append (isNameText_lowered start) ?_
      rw [List.all_append, all_isNamePart_flatMap_lowered taken, dropped]
      rfl

/-- The schema spells a name as a name. -/
theorem isName_fieldName {name : String} (valid : isName name = true) :
    isName (fieldName name) = true := by
  rw [isName, fieldName, String.toList_ofList]
  exact isNameText_fieldLetters valid

/-! ### A normal form -/

/-- Only capitals at the start are changed. -/
theorem firstWordCapitals_le (letters : List Char) :
    firstWordCapitals letters ≤ (letters.takeWhile Text.isCapital).length := by
  unfold firstWordCapitals
  dsimp only
  split
  · split
    · exact Nat.sub_le _ _
    · exact Nat.le_refl _
  · exact Nat.le_refl _

/-- A name that begins with a capital is changed by the spelling in the schema. -/
theorem firstWordCapitals_ne_zero {first : Char} (rest : List Char)
    (capital : Text.isCapital first = true) : firstWordCapitals (first :: rest) ≠ 0 := by
  unfold firstWordCapitals
  rw [List.takeWhile_cons_of_pos capital, List.length_cons]
  dsimp only
  split
  · split
    · next several =>
      rw [Bool.and_eq_true, decide_eq_true_eq] at several
      omega
    · exact Nat.succ_ne_zero _
  · exact Nat.succ_ne_zero _

theorem take_firstWordCapitals_isCapitals (letters : List Char) :
    letters.take (firstWordCapitals letters) <+: letters.takeWhile Text.isCapital := by
  refine List.prefix_of_prefix_length_le (List.take_prefix _ _) (List.takeWhile_prefix _) ?_
  rw [List.length_take]
  exact Nat.le_trans (Nat.min_le_left _ _) (firstWordCapitals_le letters)

theorem takeWhile_eq_nil_of_head? {letters : List Char}
    (noCapital : ∀ letter ∈ letters.head?, Text.isCapital letter = false) :
    letters.takeWhile Text.isCapital = [] := by
  cases letters with
  | nil => rfl
  | cons letter others =>
    refine List.takeWhile_cons_of_neg ?_
    rw [noCapital letter rfl]
    exact Bool.false_ne_true

/-- What is its own small form stays as it is. -/
theorem flatMap_lowered_of_fixed {letters : List Char}
    (fixed : ∀ letter ∈ letters, Text.lowered letter = [letter]) :
    letters.flatMap Text.lowered = letters := by
  induction letters with
  | nil => rfl
  | cons letter others inductionHypothesis =>
    obtain ⟨first, rest⟩ := List.forall_mem_cons.mp fixed
    rw [List.flatMap_cons, first, List.singleton_append, inductionHypothesis rest]

theorem fieldLetters_of_fixed {letters : List Char}
    (fixed : ∀ letter ∈ letters.take (firstWordCapitals letters),
      Text.lowered letter = [letter]) : fieldLetters letters = letters := by
  rw [fieldLetters, flatMap_lowered_of_fixed fixed, List.take_append_drop]

/-- Text that is changed by taking small forms starts with letters that stay as they are, behind
which there is no capital any more. -/
theorem exists_fixed_of_flatMap_lowered (letters : List Char) :
    letters.flatMap Text.lowered = letters ∨
      ∃ fixed small rest, letters.flatMap Text.lowered = fixed ++ small :: rest ∧
        (∀ letter ∈ fixed, Text.lowered letter = [letter]) ∧ Text.isCapital small = false := by
  induction letters with
  | nil => exact Or.inl rfl
  | cons letter others inductionHypothesis =>
    rw [List.flatMap_cons]
    rcases Text.lowered_eq_self_or_isCapital_eq_false letter with own | ⟨nonempty, noCapital⟩
    · rw [own, List.singleton_append]
      rcases inductionHypothesis with same | ⟨fixed, small, rest, split, stay, notCapital⟩
      · exact Or.inl (congrArg (letter :: ·) same)
      · exact Or.inr ⟨letter :: fixed, small, rest, congrArg (letter :: ·) split,
          List.forall_mem_cons.mpr ⟨own, stay⟩, notCapital⟩
    · obtain ⟨small, rest, isSmall⟩ := List.exists_cons_of_ne_nil nonempty
      rw [isSmall] at noCapital ⊢
      exact Or.inr ⟨[], small, rest ++ others.flatMap Text.lowered, rfl, List.forall_mem_nil _,
        noCapital small List.mem_cons_self⟩

/-- Behind a letter that is no capital nothing is changed. -/
theorem mem_of_mem_take_firstWordCapitals {front rest : List Char} {small letter : Char}
    (notCapital : Text.isCapital small = false)
    (taken : letter ∈ (front ++ small :: rest).take
      (firstWordCapitals (front ++ small :: rest))) : letter ∈ front := by
  have inRun := (take_firstWordCapitals_isCapitals _).subset taken
  rw [List.takeWhile_append] at inRun
  split at inRun
  · rw [List.takeWhile_cons_of_neg (by rw [notCapital]; exact Bool.false_ne_true),
      List.append_nil] at inRun
    exact inRun
  · exact (List.takeWhile_prefix _).subset inRun

theorem fieldLetters_fieldLetters (letters : List Char) :
    fieldLetters (fieldLetters letters) = fieldLetters letters := by
  rcases exists_fixed_of_flatMap_lowered (letters.take (firstWordCapitals letters)) with
    same | ⟨fixed, small, rest, split, stay, notCapital⟩
  · have unchanged : fieldLetters letters = letters := by
      rw [fieldLetters, same, List.take_append_drop]
    rw [unchanged, unchanged]
  · refine fieldLetters_of_fixed fun letter taken => stay letter ?_
    rw [fieldLetters, split, List.append_assoc, List.cons_append] at taken
    exact mem_of_mem_take_firstWordCapitals notCapital taken

/-- The spelling of the schema is a normal form of names. It takes the small forms of capitals at
the start of a name, of at least one where there is one, and leaves the rest as it is. -/
theorem fieldName_isNormalForm (name : String) :
    fieldName (fieldName name) = fieldName name ∧
    (isName name = true → isName (fieldName name) = true) ∧
    ((∀ letter ∈ name.toList.head?, Text.isCapital letter = false) → fieldName name = name) ∧
    ∃ front rest, name.toList = front ++ rest ∧
      front <+: name.toList.takeWhile Text.isCapital ∧
      (front = [] → name.toList.takeWhile Text.isCapital = []) ∧
      fieldName name = String.ofList (front.flatMap Text.lowered ++ rest) := by
  refine ⟨?_, isName_fieldName, fun noCapital => ?_, ?_⟩
  · rw [fieldName, fieldName, String.toList_ofList, fieldLetters_fieldLetters]
  · rw [fieldName, fieldLetters_of_fixed, String.ofList_toList]
    intro letter taken
    have inRun := (take_firstWordCapitals_isCapitals _).subset taken
    rw [takeWhile_eq_nil_of_head? noCapital] at inRun
    cases inRun
  · refine ⟨_, _, (List.take_append_drop (firstWordCapitals name.toList) name.toList).symm,
      take_firstWordCapitals_isCapitals name.toList, fun none => ?_, rfl⟩
    cases letters : name.toList with
    | nil => rfl
    | cons first others =>
      refine List.takeWhile_cons_of_neg fun capital => ?_
      rw [letters] at none
      exact (List.take_eq_nil_iff.mp none).elim (firstWordCapitals_ne_zero others capital)
        (List.cons_ne_nil first others)

/-- Of an acronym that is followed by a small letter the last capital begins the next word. In a
second round the name starts with a small letter. -/
theorem fieldName_isNormalForm_urlSegment :
    fieldName "URLSegment" = "urlSegment" ∧ isName "URLSegment" = true ∧
      isName (fieldName "URLSegment") = true ∧
      (∀ letter ∈ "urlSegment".toList.head?, Text.isCapital letter = false) ∧
      fieldName "urlSegment" = "urlSegment" := by
  have isSpelled : fieldName "URLSegment" = "urlSegment" := by decide +kernel
  have isValid : isName "URLSegment" = true := by decide +kernel
  have isSmall : Text.isCapital 'u' = false := by decide +kernel
  have noCapital : ∀ letter ∈ "urlSegment".toList.head?, Text.isCapital letter = false := by
    rintro letter ⟨⟩
    exact isSmall
  exact ⟨isSpelled, isValid, (fieldName_isNormalForm "URLSegment").2.1 isValid, noCapital,
    (fieldName_isNormalForm "urlSegment").2.2.1 noCapital⟩

/-- A capital without a small form stays in front, and is not lowered in a second round either. -/
example : fieldName "𝐀BCd" = "𝐀bCd" ∧ fieldName "𝐀bCd" = "𝐀bCd" := by decide +kernel

end Spelling

end SchemaAssembly
